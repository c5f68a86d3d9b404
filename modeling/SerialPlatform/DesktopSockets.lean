import SerialPlatform.DesktopCourse

/-!
# Which socket the calls of the desktop client use

At most the current call talks to the daemon, on the current socket.  A call which has
been overtaken waits for the `open` event of its own socket at most, and then nothing has
been sent on a newer one.
-/

namespace SerialPlatform.Desktop

/-- The call exchanges messages on its socket. -/
def Awaiting.converses : Awaiting → Bool
  | .welcome _ _ _ | .greeted _ _ | .attach _ _ | .attached _ _ => true
  | .handshake | .opened | .failed => false

namespace SerialClient

/-- The socket has opened. -/
def Up (client : SerialClient) (socket : SocketId) : Prop :=
  client.readyState socket = .opened ∨ client.listening socket = true

/-- Who has opened each socket. -/
def openers (client : SerialClient) : List Caller :=
  client.sockets.map WebSocket.opener

/-- How a call stands to the current socket and to what is pending. -/
structure Fits (client : SerialClient) (call : Call) : Prop where
  made : ∀ {socket expected awaiting}, call.stage = .opening socket expected awaiting →
    socket < client.sockets.length
  overtaken : ∀ {socket expected awaiting}, call.stage = .opening socket expected awaiting →
    call.version ≠ client.connectionVersion → ∀ own, client.socket = some own → ¬client.Up own
  handshake : ∀ {socket expected}, call.stage = .opening socket expected .handshake →
    ¬client.Up socket ∧ (call.version = client.connectionVersion → client.socket = some socket)
  opened : ∀ {socket expected}, call.stage = .opening socket expected .opened →
    call.version = client.connectionVersion →
      client.socket = some socket ∧ client.readyState socket = .opened ∧
        client.listening socket = false
  conversing : ∀ {socket expected awaiting},
    call.stage = .opening socket expected awaiting → awaiting.converses = true →
      client.socket = some socket ∧ call.version = client.connectionVersion ∧
        client.listening socket = true
  hello : ∀ {socket expected hello welcomed},
    call.stage = .opening socket expected (.welcome hello welcomed none) →
      hello ∈ client.pending.map PendingRequest.requestId
  welcome : ∀ {socket expected hello accepted},
    call.stage = .opening socket expected (.welcome hello none accepted) →
      client.pendingWelcome.map PendingWelcome.socket = some socket
  greeting : ∀ {socket expected hello actor reply},
    call.stage ≠ .opening socket expected (.welcome hello (some actor) (some reply))
  attach : ∀ {socket expected actor request},
    call.stage = .opening socket expected (.attach actor request) →
      request ∈ client.pending.map PendingRequest.requestId

structure Sockets (client : SerialClient) : Prop where
  fits : ∀ call ∈ client.calls, client.Fits call
  apart : ∀ call ∈ client.calls, ∀ other ∈ client.calls,
    ∀ {socket expected awaiting expected' awaiting'},
      call.stage = .opening socket expected awaiting →
      other.stage = .opening socket expected' awaiting' → call.id = other.id
  made : ∀ socket, client.socket = some socket → socket < client.sockets.length
  stopped : client.stopped = true → client.socket = none
  ready : ∀ socket, client.readySocket = some socket →
    client.socket = some socket ∧ client.listening socket = true ∧ client.actor ≠ none
  held : ∀ socket, client.socket = some socket →
    client.readySocket = some socket ∨ ∃ call ∈ client.calls,
      call.version = client.connectionVersion ∧
        ∃ expected awaiting, call.stage = .opening socket expected awaiting
  pending : ∀ request ∈ client.pending,
    client.socket = some request.socket ∧ client.listening request.socket = true
  welcome : ∀ welcome, client.pendingWelcome = some welcome →
    client.socket = some welcome.socket ∧ client.listening welcome.socket = true
  owner : ∀ socket, client.socket = some socket → ∀ generation,
    client.openers[socket]? = some (.run generation) → generation = client.connectionVersion
  listen : ∀ socket, client.listening socket = true → client.readyState socket ≠ .connecting

/-- While a timer is pending, a current call can only have failed. -/
def Retried (client : SerialClient) : Prop :=
  client.reconnectLoop.timer ≠ none → ∀ call ∈ client.calls,
    call.version = client.connectionVersion →
      ∃ socket expected, call.stage = .opening socket expected .failed

/-! ## States of sockets -/

section States

variable {client : SerialClient} {socket other : SocketId}

theorem readyState_setReadyState_self {state : ReadyState} (h : socket < client.sockets.length) :
    (client.setReadyState socket state).readyState socket = state := by
  simp [setReadyState, readyState, List.getElem?_eq_getElem h]

theorem readyState_setReadyState_ne {state : ReadyState} (h : other ≠ socket) :
    (client.setReadyState socket state).readyState other = client.readyState other := by
  simp [setReadyState, readyState, Ne.symm h]

@[simp] theorem listening_setReadyState {state : ReadyState} :
    (client.setReadyState socket state).listening other = client.listening other := by
  simp only [setReadyState, listening, List.getElem?_modify]
  cases client.sockets[other]? with
  | none => rfl
  | some webSocket => by_cases h : socket = other <;> simp [h]

theorem listening_setListening_self {value : Bool} (h : socket < client.sockets.length) :
    (client.setListening socket value).listening socket = value := by
  simp [setListening, listening, List.getElem?_eq_getElem h]

theorem listening_setListening_ne {value : Bool} (h : other ≠ socket) :
    (client.setListening socket value).listening other = client.listening other := by
  simp [setListening, listening, Ne.symm h]

@[simp] theorem readyState_setListening {value : Bool} :
    (client.setListening socket value).readyState other = client.readyState other := by
  simp only [setListening, readyState, List.getElem?_modify]
  cases client.sockets[other]? with
  | none => rfl
  | some webSocket => by_cases h : socket = other <;> simp [h]

@[simp] theorem length_setReadyState {state : ReadyState} :
    (client.setReadyState socket state).sockets.length = client.sockets.length := by
  simp [setReadyState]

@[simp] theorem length_setListening {value : Bool} :
    (client.setListening socket value).sockets.length = client.sockets.length := by
  simp [setListening]

@[simp] theorem openers_setReadyState {state : ReadyState} :
    (client.setReadyState socket state).openers = client.openers := by
  apply List.ext_getElem?
  intro i
  simp only [openers, setReadyState, List.getElem?_map, List.getElem?_modify]
  cases client.sockets[i]? with
  | none => rfl
  | some webSocket => by_cases h : socket = i <;> simp [h]

@[simp] theorem openers_setListening {value : Bool} :
    (client.setListening socket value).openers = client.openers := by
  apply List.ext_getElem?
  intro i
  simp only [openers, setListening, List.getElem?_map, List.getElem?_modify]
  cases client.sockets[i]? with
  | none => rfl
  | some webSocket => by_cases h : socket = i <;> simp [h]

theorem lt_of_readyState (h : client.readyState socket ≠ .closed) :
    socket < client.sockets.length := by
  by_contra hge
  apply h
  rw [readyState, List.getElem?_eq_none (Nat.not_lt.mp hge)]

theorem lt_of_listening (h : client.listening socket = true) :
    socket < client.sockets.length := by
  by_contra hge
  rw [listening, List.getElem?_eq_none (Nat.not_lt.mp hge)] at h
  simp at h

end States

/-! ## A promise is rejected -/

/-- The stage once all that it can wait for on a socket is rejected. -/
def abandoned : Stage → Stage
  | .opening socket expected (.welcome _ _ _) => .opening socket expected .failed
  | .opening socket expected (.attach _ _) => .opening socket expected .failed
  | stage => stage

variable {client : SerialClient} {call : Call}

theorem Fits.congr (h : client.Fits call) {next : SerialClient}
    (hsocket : next.socket = client.socket)
    (hversion : next.connectionVersion = client.connectionVersion)
    (hsockets : next.sockets = client.sockets) (hpending : next.pending = client.pending)
    (hwelcome : next.pendingWelcome = client.pendingWelcome) : next.Fits call := by
  have hready : ∀ socket, next.readyState socket = client.readyState socket := by
    intro socket
    rw [readyState, readyState, hsockets]
  have hlistening : ∀ socket, next.listening socket = client.listening socket := by
    intro socket
    rw [listening, listening, hsockets]
  have hup : ∀ socket, next.Up socket ↔ client.Up socket := by
    intro socket
    rw [Up, Up, hready, hlistening]
  constructor
  · intro socket expected awaiting hstage
    rw [hsockets]
    exact h.made hstage
  · intro socket expected awaiting hstage hstale own hown
    rw [hversion] at hstale
    rw [hsocket] at hown
    rw [hup]
    exact h.overtaken hstage hstale own hown
  · intro socket expected hstage
    rw [hup, hversion, hsocket]
    exact h.handshake hstage
  · intro socket expected hstage
    rw [hversion, hsocket, hready, hlistening]
    exact h.opened hstage
  · intro socket expected awaiting hstage
    rw [hversion, hsocket, hlistening]
    exact h.conversing hstage
  · intro socket expected hello welcomed hstage
    rw [hpending]
    exact h.hello hstage
  · intro socket expected hello accepted hstage
    rw [hwelcome]
    exact h.welcome hstage
  · exact h.greeting
  · intro socket expected actor request hstage
    rw [hpending]
    exact h.attach hstage

/-- A call which has failed waits for nothing. -/
theorem Fits.failed (h : client.Fits call) {socket : SocketId} {expected : Status}
    {awaiting : Awaiting} (hstage : call.stage = .opening socket expected awaiting)
    {failed : Call} (hfailed : failed.stage = .opening socket expected .failed)
    (hversion : failed.version = call.version) : client.Fits failed := by
  constructor
  · intro own _ _ hown
    rw [hfailed] at hown
    injection hown with hown
    rw [← hown]
    exact h.made hstage
  · intro own _ _ hown hstale
    rw [hversion] at hstale
    exact h.overtaken hstage hstale
  all_goals
    intros
    simp_all [Awaiting.converses]

/-- Every request and Welcome which a call waits for is pending. -/
structure Waits (client : SerialClient) (call : Call) : Prop where
  hello : ∀ {socket expected hello welcomed},
    call.stage = .opening socket expected (.welcome hello welcomed none) →
      hello ∈ client.pending.map PendingRequest.requestId
  welcome : ∀ {socket expected hello accepted},
    call.stage = .opening socket expected (.welcome hello none accepted) →
      client.pendingWelcome.map PendingWelcome.socket = some socket
  greeting : ∀ {socket expected hello actor reply},
    call.stage ≠ .opening socket expected (.welcome hello (some actor) (some reply))
  attach : ∀ {socket expected actor request},
    call.stage = .opening socket expected (.attach actor request) →
      request ∈ client.pending.map PendingRequest.requestId

theorem Fits.waits (h : client.Fits call) : client.Waits call :=
  ⟨h.hello, h.welcome, h.greeting, h.attach⟩

theorem stage_rejectPending_hello {socket : SocketId} {expected : Status} {hello : RequestId}
    {welcomed : Option Actor} (h : hello ∈ client.pending.map PendingRequest.requestId) :
    (client.pending.any fun request =>
      awaitsRequest request.requestId (.opening socket expected (.welcome hello welcomed none))) =
        true := by
  obtain ⟨request, hrequest, hid⟩ := List.mem_map.mp h
  exact List.any_eq_true.mpr ⟨request, hrequest, by simp [awaitsRequest, hid]⟩

theorem stage_rejectPending_attach {socket : SocketId} {expected : Status} {attach : RequestId}
    {actor : Actor} (h : attach ∈ client.pending.map PendingRequest.requestId) :
    (client.pending.any fun request =>
      awaitsRequest request.requestId (.opening socket expected (.attach actor attach))) = true := by
  obtain ⟨request, hrequest, hid⟩ := List.mem_map.mp h
  exact List.any_eq_true.mpr ⟨request, hrequest, by simp [awaitsRequest, hid]⟩

/-- Rejecting the handshake of the current socket and what is pending fails every call
which exchanges messages. -/
theorem calls_abandon {socket : SocketId} (hwaits : ∀ call ∈ client.calls, client.Waits call)
    (hwelcome : ∀ welcome, client.pendingWelcome = some welcome → welcome.socket = socket) :
    ((client.rejectSocketHandshake socket).rejectPending).calls =
      client.calls.map fun call => { call with stage := abandoned call.stage } := by
  have hpending : (client.rejectSocketHandshake socket).pending = client.pending := by
    unfold rejectSocketHandshake
    split
    · rfl
    · split <;> rfl
  have hcalls : (client.rejectSocketHandshake socket).calls = client.calls.map fun call =>
      { call with
        stage :=
          if client.pendingWelcome.isSome ∧ awaitsWelcome socket call.stage then call.stage.fail
          else call.stage } := by
    unfold rejectSocketHandshake
    cases hpendingWelcome : client.pendingWelcome with
    | none => simp
    | some welcome => simp [hwelcome welcome hpendingWelcome, failCalls, mapStages]
  simp only [rejectPending, failCalls, mapStages, hpending, hcalls, List.map_map]
  apply List.map_congr_left
  intro call hcall
  have hcallWaits := hwaits call hcall
  obtain ⟨id, caller, version, stage⟩ := call
  simp only [Function.comp_apply, Call.mk.injEq, true_and]
  cases stage with
  | configuring => simp [awaitsWelcome, awaitsRequest, abandoned]
  | loadingHistory => simp [awaitsWelcome, awaitsRequest, abandoned]
  | opening own expected awaiting =>
      cases awaiting with
      | handshake | opened | failed => simp [awaitsWelcome, awaitsRequest, abandoned]
      | greeted actor reply => simp [awaitsWelcome, awaitsRequest, abandoned]
      | attached actor reply => simp [awaitsWelcome, awaitsRequest, abandoned]
      | attach actor attach =>
          have hattach := hcallWaits.attach rfl
          have hany := @stage_rejectPending_attach client own expected _ actor hattach
          simp [awaitsWelcome, abandoned, Stage.fail, hany]
      | welcome hello welcomed accepted =>
          cases accepted with
          | none =>
              have hhello := hcallWaits.hello rfl
              have hany := @stage_rejectPending_hello client own expected _ welcomed hhello
              by_cases hown : client.pendingWelcome.isSome = true ∧
                  awaitsWelcome socket
                    (.opening own expected (.welcome hello welcomed none)) = true
              · simp [hown, Stage.fail, awaitsRequest, abandoned]
              · simp [hown, hany, Stage.fail, abandoned]
          | some reply =>
              cases welcomed with
              | some actor => exact absurd rfl hcallWaits.greeting
              | none =>
                  have hown := hcallWaits.welcome rfl
                  cases hpendingWelcome : client.pendingWelcome with
                  | none => simp [hpendingWelcome] at hown
                  | some welcome =>
                      have hsocket := hwelcome welcome hpendingWelcome
                      simp only [hpendingWelcome, Option.map_some, Option.some.injEq] at hown
                      have hsame : own = socket := hown.symm.trans hsocket
                      simp [awaitsWelcome, hsame, Stage.fail, awaitsRequest, abandoned]

def quit (call : Call) : Call :=
  { call with stage := abandoned call.stage }

theorem abandon_eq {socket : SocketId} (hwaits : ∀ call ∈ client.calls, client.Waits call)
    (hwelcome : ∀ welcome, client.pendingWelcome = some welcome → welcome.socket = socket) :
    (client.rejectSocketHandshake socket).rejectPending =
      { client with
        calls := client.calls.map quit
        pending := []
        pendingWelcome := none
        settlements := client.settlements ++ client.pending.map PendingRequest.lost } := by
  have hcalls := calls_abandon hwaits hwelcome
  have hhandshake : ∃ calls, client.rejectSocketHandshake socket =
      { client with calls := calls, pendingWelcome := none } := by
    cases hpendingWelcome : client.pendingWelcome with
    | none =>
        refine ⟨client.calls, ?_⟩
        simp only [rejectSocketHandshake, hpendingWelcome]
        rw [← hpendingWelcome]
    | some welcome =>
        refine ⟨(client.failCalls (awaitsWelcome socket)).calls, ?_⟩
        simp only [rejectSocketHandshake, hpendingWelcome,
          if_pos (hwelcome welcome hpendingWelcome)]
        rfl
  obtain ⟨calls, heq⟩ := hhandshake
  rw [heq] at hcalls ⊢
  simp only [rejectPending, failCalls, mapStages] at hcalls ⊢
  rw [hcalls]
  rfl

/-- What a call waits for after it was abandoned. -/
theorem abandoned_opening {stage : Stage} {socket : SocketId} {expected : Status}
    {awaiting : Awaiting} (h : abandoned stage = .opening socket expected awaiting) :
    ∃ before, stage = .opening socket expected before ∧
      (awaiting = before ∧ (before.converses = true → before.isSettled = true) ∨
        awaiting = .failed ∧ before.converses = true ∧ before.isSettled = false) := by
  cases stage with
  | configuring => simp [abandoned] at h
  | loadingHistory => simp [abandoned] at h
  | opening own status before =>
      cases before <;> simp only [abandoned, Stage.opening.injEq] at h <;>
        obtain ⟨rfl, rfl, rfl⟩ := h <;> refine ⟨_, rfl, ?_⟩ <;>
        simp [Awaiting.converses, Awaiting.isSettled]

/-- An abandoned call keeps its socket. -/
theorem exists_abandoned {socket : SocketId} {expected : Status} {awaiting : Awaiting}
    (h : call.stage = .opening socket expected awaiting) :
    ∃ after, (quit call).stage = .opening socket expected after := by
  rw [quit, h]
  cases awaiting <;> exact ⟨_, rfl⟩

theorem mem_quit {calls : List Call} {call : Call} (h : call ∈ calls.map quit) :
    ∃ before ∈ calls, call = quit before := by
  obtain ⟨before, hbefore, hquit⟩ := List.mem_map.mp h
  exact ⟨before, hbefore, hquit.symm⟩

/-! ## Steps which keep the sockets in order -/

theorem Sockets.congr (h : client.Sockets) {next : SerialClient} (hcalls : next.calls = client.calls)
    (hsocket : next.socket = client.socket) (hready : next.readySocket = client.readySocket)
    (hstopped : next.stopped = client.stopped)
    (hversion : next.connectionVersion = client.connectionVersion)
    (hactor : next.actor = client.actor) (hpending : next.pending = client.pending)
    (hwelcome : next.pendingWelcome = client.pendingWelcome)
    (hsockets : next.sockets = client.sockets) : next.Sockets := by
  have hlistening : ∀ socket, next.listening socket = client.listening socket := by
    intro socket
    rw [listening, listening, hsockets]
  have hreadyState : ∀ socket, next.readyState socket = client.readyState socket := by
    intro socket
    rw [readyState, readyState, hsockets]
  constructor
  · intro call hcall
    rw [hcalls] at hcall
    exact (h.fits call hcall).congr hsocket hversion hsockets hpending hwelcome
  · rw [hcalls]
    exact h.apart
  · rw [hsocket, hsockets]
    exact h.made
  · rw [hstopped, hsocket]
    exact h.stopped
  · intro socket
    rw [hready, hsocket, hactor, hlistening]
    exact h.ready socket
  · rw [hsocket, hready, hcalls, hversion]
    exact h.held
  · intro request
    rw [hpending, hsocket, hlistening]
    exact h.pending request
  · intro welcome
    rw [hwelcome, hsocket, hlistening]
    exact h.welcome welcome
  · rw [openers, hsocket, hsockets, hversion]
    exact h.owner
  · intro socket
    rw [hlistening, hreadyState]
    exact h.listen socket

theorem Fits.quit (h : client.Fits call) :
    { client with pending := [], pendingWelcome := none }.Fits (quit call) := by
  constructor
  · intro socket expected awaiting hstage
    obtain ⟨before, hbefore, _⟩ := abandoned_opening hstage
    exact h.made hbefore
  · intro socket expected awaiting hstage
    obtain ⟨before, hbefore, _⟩ := abandoned_opening hstage
    exact h.overtaken hbefore
  · intro socket expected hstage
    obtain ⟨before, hbefore, hsame | hfailed⟩ := abandoned_opening hstage
    · rw [← hsame.1] at hbefore
      exact h.handshake hbefore
    · simp at hfailed
  · intro socket expected hstage
    obtain ⟨before, hbefore, hsame | hfailed⟩ := abandoned_opening hstage
    · rw [← hsame.1] at hbefore
      exact h.opened hbefore
    · simp at hfailed
  · intro socket expected awaiting hstage hconverses
    obtain ⟨before, hbefore, hsame | hfailed⟩ := abandoned_opening hstage
    · rw [hsame.1] at hconverses
      exact h.conversing hbefore hconverses
    · rw [hfailed.1] at hconverses
      simp [Awaiting.converses] at hconverses
  · intro socket expected hello welcomed hstage
    obtain ⟨before, hbefore, hsame | hfailed⟩ := abandoned_opening hstage
    · rw [← hsame.1] at hsame
      simp [Awaiting.converses, Awaiting.isSettled] at hsame
    · simp at hfailed
  · intro socket expected hello accepted hstage
    obtain ⟨before, hbefore, hsame | hfailed⟩ := abandoned_opening hstage
    · rw [← hsame.1] at hsame
      simp [Awaiting.converses, Awaiting.isSettled] at hsame
    · simp at hfailed
  · intro socket expected hello actor reply hstage
    obtain ⟨before, hbefore, hsame | hfailed⟩ := abandoned_opening hstage
    · rw [← hsame.1] at hsame
      simp [Awaiting.converses, Awaiting.isSettled] at hsame
    · simp at hfailed
  · intro socket expected actor request hstage
    obtain ⟨before, hbefore, hsame | hfailed⟩ := abandoned_opening hstage
    · rw [← hsame.1] at hsame
      simp [Awaiting.converses, Awaiting.isSettled] at hsame
    · simp at hfailed

/-- What waits is rejected and the sockets stay as they are. -/
theorem Sockets.abandon (h : client.Sockets) {socket : SocketId}
    (hwelcome : ∀ welcome, client.pendingWelcome = some welcome → welcome.socket = socket) :
    ((client.rejectSocketHandshake socket).rejectPending).Sockets := by
  rw [abandon_eq (fun call hcall => (h.fits call hcall).waits) hwelcome]
  constructor
  · intro call hcall
    obtain ⟨before, hbefore, rfl⟩ := mem_quit hcall
    exact (h.fits before hbefore).quit.congr rfl rfl rfl rfl rfl
  · intro call hcall other hother socket expected awaiting expected' awaiting' hstage hstage'
    obtain ⟨before, hbefore, rfl⟩ := mem_quit hcall
    obtain ⟨before', hbefore', rfl⟩ := mem_quit hother
    obtain ⟨_, hopening, _⟩ := abandoned_opening hstage
    obtain ⟨_, hopening', _⟩ := abandoned_opening hstage'
    exact h.apart before hbefore before' hbefore' hopening hopening'
  · exact h.made
  · exact h.stopped
  · exact h.ready
  · intro own hown
    cases h.held own hown with
    | inl hready => exact Or.inl hready
    | inr hcall =>
        obtain ⟨call, hcall, hversion, expected, awaiting, hstage⟩ := hcall
        refine Or.inr ⟨quit call, List.mem_map_of_mem hcall, hversion, expected, ?_⟩
        exact exists_abandoned hstage
  · intro request hrequest
    simp at hrequest
  · intro welcome hnone
    simp at hnone
  · exact h.owner
  · exact h.listen

/-! ### `openSocket` throws -/

section Drop

variable {socket other : SocketId}

theorem readyState_terminate_ne (h : other ≠ socket) :
    (client.terminate socket).readyState other = client.readyState other := by
  unfold terminate
  split
  · rfl
  · exact readyState_setReadyState_ne h

theorem readyState_terminate_self :
    (client.terminate socket).readyState socket = .closed ∨
      (client.terminate socket).readyState socket = .closing := by
  unfold terminate
  split
  · rename_i hclosed
    exact Or.inl hclosed
  · rename_i hopen
    exact Or.inr (readyState_setReadyState_self (lt_of_readyState hopen))

@[simp] theorem listening_terminate :
    (client.terminate socket).listening other = client.listening other := by
  unfold terminate
  split
  · rfl
  · exact listening_setReadyState

@[simp] theorem length_terminate :
    (client.terminate socket).sockets.length = client.sockets.length := by
  unfold terminate
  split
  · rfl
  · exact length_setReadyState

@[simp] theorem openers_terminate :
    (client.terminate socket).openers = client.openers := by
  unfold terminate
  split
  · rfl
  · exact openers_setReadyState

/-- A socket which is dropped is not up, and no other changes. -/
theorem up_drop : ((client.setListening socket false).terminate socket).Up other ↔
    other ≠ socket ∧ client.Up other := by
  by_cases h : other = socket
  · subst h
    have hstate := @readyState_terminate_self (client.setListening other false) other
    have hlistening : (client.setListening other false).listening other = false := by
      by_cases hlt : other < client.sockets.length
      · exact listening_setListening_self hlt
      · by_contra hne
        rw [Bool.not_eq_false] at hne
        have hmade := lt_of_listening hne
        rw [length_setListening] at hmade
        exact hlt hmade
    simp only [Up, listening_terminate, hlistening]
    cases hstate with
    | inl hclosed => simp [hclosed]
    | inr hclosing => simp [hclosing]
  · simp [Up, readyState_terminate_ne h, listening_setListening_ne h, h]

end Drop

/-- Dropping a socket changes the socket and tells the daemon. -/
theorem drop_eq (socket : SocketId) (client : SerialClient) :
    ∃ sockets outbox, (client.setListening socket false).terminate socket =
      { client with sockets := sockets, outbox := outbox } := by
  unfold terminate
  split
  · exact ⟨_, client.outbox, rfl⟩
  · exact ⟨_, _, rfl⟩

/-- The fields which `schedule` and the end of an attempt leave alone. -/
theorem callerThrows_eq (caller : Caller) (client : SerialClient) :
    ∃ loop timers nextId, client.callerThrows caller =
      { client with reconnectLoop := loop, timers := timers, nextId := nextId } := by
  have hschedule : ∀ before : SerialClient, ∃ loop timers nextId, before.schedule =
      { before with reconnectLoop := loop, timers := timers, nextId := nextId } := by
    intro before
    unfold schedule
    split
    · exact ⟨before.reconnectLoop, before.timers, before.nextId, rfl⟩
    · exact ⟨_, _, _, rfl⟩
  cases caller with
  | start => exact ⟨client.reconnectLoop, client.timers, client.nextId, rfl⟩
  | reconnectSocket =>
      simp only [callerThrows]
      split
      · exact ⟨client.reconnectLoop, client.timers, client.nextId, rfl⟩
      · exact hschedule client
  | run generation =>
      simp only [callerThrows, runEnds]
      split
      · obtain ⟨loop, timers, nextId, heq⟩ := hschedule _
        exact ⟨loop, timers, nextId, heq⟩
      · exact ⟨_, client.timers, client.nextId, rfl⟩

theorem callerReturns_eq (caller : Caller) (client : SerialClient) :
    ∃ loop, client.callerReturns caller = { client with reconnectLoop := loop } ∧
      loop.timer = client.reconnectLoop.timer := by
  cases caller with
  | start => exact ⟨client.reconnectLoop, rfl, rfl⟩
  | reconnectSocket => exact ⟨client.reconnectLoop, rfl, rfl⟩
  | run generation =>
      simp only [callerReturns, runEnds]
      split
      · rename_i hfalse
        simp at hfalse
      · exact ⟨_, rfl, rfl⟩

theorem Sockets.callerThrows (h : client.Sockets) (caller : Caller) :
    (client.callerThrows caller).Sockets := by
  obtain ⟨loop, timers, nextId, heq⟩ := callerThrows_eq caller client
  rw [heq]
  exact h.congr rfl rfl rfl rfl rfl rfl rfl rfl rfl

theorem Sockets.callerReturns (h : client.Sockets) (caller : Caller) :
    (client.callerReturns caller).Sockets := by
  obtain ⟨loop, heq, _⟩ := callerReturns_eq caller client
  rw [heq]
  exact h.congr rfl rfl rfl rfl rfl rfl rfl rfl rfl

theorem mem_endCall {id : ℕ} : call ∈ (client.endCall id).calls ↔
    call ∈ client.calls ∧ call.id ≠ id := by
  simp [endCall]

theorem key_mem (hcall : call ∈ client.calls) : call.key ∈ client.course.keys :=
  List.mem_map_of_mem hcall

/-- Two calls under way with one number are the same. -/
theorem eq_of_id (hcourse : client.course.Orderly) {other : Call} (hcall : call ∈ client.calls)
    (hother : other ∈ client.calls) (hid : call.id = other.id) : call = other := by
  have hdistinct : (client.calls.map Call.id).Nodup := by
    simpa [course, Function.comp_def, Call.key] using hcourse.distinct
  exact List.inj_on_of_nodup_map hdistinct hcall hother hid

/-- Two calls of the current version are the same. -/
theorem eq_of_current (hcourse : client.course.Orderly) {other : Call}
    (hcall : call ∈ client.calls) (hother : other ∈ client.calls)
    (hversion : call.version = client.connectionVersion)
    (hversion' : other.version = client.connectionVersion) : call = other := by
  have hkey := hcourse.alone call.key (key_mem hcall) other.key (key_mem hother) hversion hversion'
  exact eq_of_id hcourse hcall hother (congrArg CallKey.id hkey)

/-- Where a call has been overtaken, nothing was sent on a newer socket. -/
theorem Sockets.silent (h : client.Sockets)
    (hdown : ∀ own, client.socket = some own → ¬client.Up own) :
    client.pending = [] ∧ client.pendingWelcome = none ∧ client.readySocket = none := by
  refine ⟨?_, ?_, ?_⟩
  · apply List.eq_nil_iff_forall_not_mem.mpr
    intro request hrequest
    obtain ⟨hsocket, hlistening⟩ := h.pending request hrequest
    exact hdown _ hsocket (Or.inr hlistening)
  · cases hwelcome : client.pendingWelcome with
    | none => rfl
    | some welcome =>
        obtain ⟨hsocket, hlistening⟩ := h.welcome welcome hwelcome
        exact absurd (Or.inr hlistening) (hdown _ hsocket)
  · cases hready : client.readySocket with
    | none => rfl
    | some socket =>
        obtain ⟨hsocket, hlistening, _⟩ := h.ready socket hready
        exact absurd (Or.inr hlistening) (hdown _ hsocket)

/-- The socket of a call under way: the current call may hold the current socket, and no
other call does. -/
theorem Sockets.current_of_opening (h : client.Sockets) (hcourse : client.course.Orderly)
    (hcall : call ∈ client.calls) {socket : SocketId} {expected : Status} {awaiting : Awaiting}
    (hstage : call.stage = .opening socket expected awaiting) :
    (call.version = client.connectionVersion → client.readySocket = none ∧
        ∀ own, client.socket = some own → own = socket) ∧
      (call.version ≠ client.connectionVersion → client.socket ≠ some socket) := by
  constructor
  · intro hversion
    have hready : client.readySocket = none := by
      by_contra hready
      have hsome : client.course.ready = true := Option.isSome_iff_ne_none.mpr hready
      exact (hcourse.ready hsome).2.2 call.key (key_mem hcall) hversion
    refine ⟨hready, ?_⟩
    intro own hown
    cases h.held own hown with
    | inl hown' => simp [hready] at hown'
    | inr hother =>
        obtain ⟨other, hother, hversion', expected', awaiting', hstage'⟩ := hother
        rw [eq_of_current hcourse hother hcall hversion' hversion, hstage] at hstage'
        exact (Stage.opening.inj hstage').1.symm
  · intro hversion hsocket
    have hdown := (h.fits call hcall).overtaken hstage hversion
    cases h.held socket hsocket with
    | inl hready =>
        have hnone := (h.silent hdown).2.2
        simp [hnone] at hready
    | inr hother =>
        obtain ⟨other, hother, hversion', expected', awaiting', hstage'⟩ := hother
        have hid := h.apart call hcall other hother hstage hstage'
        rw [eq_of_id hcourse hcall hother hid] at hversion
        exact hversion hversion'

/-- `openSocket` throws up to where its caller goes on. -/
theorem Sockets.dropped (h : client.Sockets) (hcourse : client.course.Orderly)
    (hcall : call ∈ client.calls) {socket : SocketId} {expected : Status} {awaiting : Awaiting}
    (hstage : call.stage = .opening socket expected awaiting) {next : SerialClient}
    (hcalls : next.calls = (client.endCall call.id).calls.map quit)
    (hsocket : next.socket = if client.socket = some socket then none else client.socket)
    (hready : next.readySocket =
      if client.readySocket = some socket then none else client.readySocket)
    (hstopped : next.stopped = client.stopped)
    (hversion : next.connectionVersion = client.connectionVersion)
    (hpending : next.pending = []) (hwelcome : next.pendingWelcome = none)
    (hlength : next.sockets.length = client.sockets.length)
    (hopeners : next.openers = client.openers)
    (hup : ∀ own, next.Up own ↔ own ≠ socket ∧ client.Up own)
    (hreadyState : ∀ own, own ≠ socket → next.readyState own = client.readyState own)
    (hlistening : ∀ own, own ≠ socket → next.listening own = client.listening own) :
    next.Sockets := by
  obtain ⟨hcurrent, hstale⟩ := h.current_of_opening hcourse hcall hstage
  have hmem : ∀ other ∈ next.calls, ∃ before ∈ client.calls, before.id ≠ call.id ∧
      other = quit before := by
    intro other hother
    rw [hcalls] at hother
    obtain ⟨before, hbefore, hquit⟩ := mem_quit hother
    obtain ⟨hold, hid⟩ := mem_endCall.mp hbefore
    exact ⟨before, hold, hid, hquit⟩
  -- A current call leaves no current socket and an overtaken one leaves the current socket.
  have hown : ∀ own, next.socket = some own → client.socket = some own ∧ own ≠ socket := by
    intro own hown
    rw [hsocket] at hown
    split at hown
    · simp at hown
    · rename_i hne
      refine ⟨hown, ?_⟩
      intro hsame
      exact hne (hsame ▸ hown)
  have hother : ∀ before ∈ client.calls, before.id ≠ call.id →
      before.version = client.connectionVersion → next.socket = client.socket := by
    intro before hbefore hid hnow
    by_cases hversion' : call.version = client.connectionVersion
    · exact absurd (congrArg Call.id (eq_of_current hcourse hbefore hcall hnow hversion')) hid
    · rw [hsocket, if_neg (hstale hversion')]
  have hdown : call.version ≠ client.connectionVersion →
      client.pending = [] ∧ client.pendingWelcome = none ∧ client.readySocket = none :=
    fun hversion' => h.silent ((h.fits call hcall).overtaken hstage hversion')
  have hreadyNone : next.readySocket = none := by
    have hnone : client.readySocket = none := by
      by_cases hversion' : call.version = client.connectionVersion
      · exact (hcurrent hversion').1
      · exact (hdown hversion').2.2
    rw [hready, hnone]
    simp
  have hapart : ∀ before ∈ client.calls, before.id ≠ call.id → ∀ {own status state},
      before.stage = .opening own status state → own ≠ socket := by
    intro before hbefore hid own status state hbeforeStage hsame
    rw [hsame] at hbeforeStage
    exact hid (h.apart before hbefore call hcall hbeforeStage hstage)
  constructor
  · intro other hother'
    obtain ⟨before, hbefore, hid, rfl⟩ := hmem other hother'
    have hfits := h.fits before hbefore
    have hquit := hfits.quit
    constructor
    · intro own status state hopening
      rw [hlength]
      exact hquit.made hopening
    · intro own status state hopening hstale' current hcurrent'
      obtain ⟨hsame, _⟩ := hown current hcurrent'
      rw [hversion] at hstale'
      rw [hup]
      intro hnextUp
      exact hquit.overtaken hopening hstale' current hsame hnextUp.2
    · intro own status hopening
      obtain ⟨hnotUp, hcurrentSocket⟩ := hquit.handshake hopening
      constructor
      · rw [hup]
        intro hnextUp
        exact hnotUp hnextUp.2
      · intro hnow
        rw [hversion] at hnow
        rw [hother before hbefore hid hnow]
        exact hcurrentSocket hnow
    · intro own status hopening hnow
      rw [hversion] at hnow
      obtain ⟨hsame, hstate, hquiet⟩ := hquit.opened hopening hnow
      obtain ⟨_, hbeforeStage, _⟩ := abandoned_opening hopening
      have hne := hapart before hbefore hid hbeforeStage
      rw [hother before hbefore hid hnow, hreadyState own hne, hlistening own hne]
      exact ⟨hsame, hstate, hquiet⟩
    · intro own status state hopening hconverses
      obtain ⟨hsame, hnow, hlisten⟩ := hquit.conversing hopening hconverses
      obtain ⟨_, hbeforeStage, _⟩ := abandoned_opening hopening
      have hne := hapart before hbefore hid hbeforeStage
      rw [hother before hbefore hid hnow, hversion, hlistening own hne]
      exact ⟨hsame, hnow, hlisten⟩
    · intro own status hello welcomed hopening
      have hnone := hquit.hello hopening
      simp at hnone
    · intro own status hello accepted hopening
      have hnone := hquit.welcome hopening
      simp at hnone
    · exact hquit.greeting
    · intro own status actor request hopening
      have hnone := hquit.attach hopening
      simp at hnone
  · intro first hfirst second hsecond own status state status' state' hopening hopening'
    obtain ⟨before, hbefore, _, rfl⟩ := hmem first hfirst
    obtain ⟨before', hbefore', _, rfl⟩ := hmem second hsecond
    obtain ⟨_, hstage', _⟩ := abandoned_opening hopening
    obtain ⟨_, hstage'', _⟩ := abandoned_opening hopening'
    exact h.apart before hbefore before' hbefore' hstage' hstage''
  · intro own hown'
    rw [hlength]
    exact h.made own (hown own hown').1
  · intro hstop
    rw [hstopped] at hstop
    rw [hsocket, h.stopped hstop]
    simp
  · intro own hready'
    simp [hreadyNone] at hready'
  · intro own hown'
    obtain ⟨hsame, hne⟩ := hown own hown'
    right
    cases h.held own hsame with
    | inl hready' =>
        by_cases hversion' : call.version = client.connectionVersion
        · simp [(hcurrent hversion').1] at hready'
        · simp [(hdown hversion').2.2] at hready'
    | inr hholder =>
        obtain ⟨holder, hholder, hnow, status, state, hopening⟩ := hholder
        have hid : holder.id ≠ call.id := by
          intro hid
          rw [eq_of_id hcourse hholder hcall hid, hstage] at hopening
          exact hne (Stage.opening.inj hopening).1.symm
        refine ⟨quit holder, ?_, ?_, status, exists_abandoned hopening⟩
        · rw [hcalls]
          exact List.mem_map_of_mem (mem_endCall.mpr ⟨hholder, hid⟩)
        · rw [hversion]
          exact hnow
  · intro request hrequest
    simp [hpending] at hrequest
  · intro welcome hwelcome'
    simp [hwelcome] at hwelcome'
  · intro own hown' generation hopener
    rw [hopeners] at hopener
    rw [hversion]
    exact h.owner own (hown own hown').1 generation hopener
  · intro own hlisten
    have hne : own ≠ socket := by
      intro hsame
      have hnextUp : next.Up own := Or.inr hlisten
      exact ((hup own).mp hnextUp).1 hsame
    rw [hlistening own hne] at hlisten
    rw [hreadyState own hne]
    exact h.listen own hlisten

/-- `openSocket` throws: its call goes, and no other call waits for an answer. -/
theorem Sockets.throws_before (h : client.Sockets) (hcourse : client.course.Orderly)
    (hcall : call ∈ client.calls) {socket : SocketId} {expected : Status} {awaiting : Awaiting}
    (hstage : call.stage = .opening socket expected awaiting) :
    ∃ next : SerialClient, client.openThrows call socket = next.callerThrows call.caller ∧
      next.Sockets ∧ next.calls = (client.endCall call.id).calls.map quit ∧
      next.reconnectLoop = client.reconnectLoop ∧
      next.connectionVersion = client.connectionVersion ∧ next.stopped = client.stopped := by
  obtain ⟨hcurrent, hstale⟩ := h.current_of_opening hcourse hcall hstage
  unfold SerialClient.openThrows
  have hwelcome : ∀ welcome, client.pendingWelcome = some welcome → welcome.socket = socket := by
    intro welcome hpending
    by_cases hversion : call.version = client.connectionVersion
    · exact (hcurrent hversion).2 _ (h.welcome welcome hpending).1
    · have hnone := (h.silent ((h.fits call hcall).overtaken hstage hversion)).2.1
      simp [hnone] at hpending
  have hwaits : ∀ other ∈ (client.endCall call.id).calls, client.Waits other := fun other hother =>
    (h.fits other (mem_endCall.mp hother).1).waits
  dsimp only
  generalize hleft : ({ client.endCall call.id with
    socket :=
      if (client.endCall call.id).socket = some socket then none
      else (client.endCall call.id).socket
    readySocket :=
      if (client.endCall call.id).readySocket = some socket then none
      else (client.endCall call.id).readySocket
    actor := none } : SerialClient) = left
  have habandon : (left.rejectSocketHandshake socket).rejectPending =
      { left with
        calls := left.calls.map quit
        pending := []
        pendingWelcome := none
        settlements := left.settlements ++ left.pending.map PendingRequest.lost } := by
    subst hleft
    apply abandon_eq
    · intro other hother
      have hold := hwaits other hother
      exact ⟨hold.hello, hold.welcome, hold.greeting, hold.attach⟩
    · exact hwelcome
  rw [habandon]
  generalize hquiet : ({ left with
    calls := left.calls.map quit
    pending := []
    pendingWelcome := none
    settlements := left.settlements ++ left.pending.map PendingRequest.lost } : SerialClient) =
      quiet
  have hsockets : quiet.sockets = client.sockets := by
    subst hquiet hleft
    rfl
  have hlistening : ∀ own, quiet.listening own = client.listening own := by
    intro own
    rw [listening, listening, hsockets]
  have hreadyState : ∀ own, quiet.readyState own = client.readyState own := by
    intro own
    rw [readyState, readyState, hsockets]
  have hopeners : ((quiet.setListening socket false).terminate socket).openers = client.openers := by
    rw [openers_terminate, openers_setListening, openers, openers, hsockets]
  have hlength : ((quiet.setListening socket false).terminate socket).sockets.length =
      client.sockets.length := by
    rw [length_terminate, length_setListening, hsockets]
  have hup : ∀ own, ((quiet.setListening socket false).terminate socket).Up own ↔
      own ≠ socket ∧ client.Up own := by
    intro own
    rw [up_drop, Up, Up, hlistening, hreadyState]
  have hstate : ∀ own, own ≠ socket →
      ((quiet.setListening socket false).terminate socket).readyState own =
        client.readyState own := by
    intro own hne
    rw [readyState_terminate_ne hne, readyState_setListening, hreadyState]
  have hlisten : ∀ own, own ≠ socket →
      ((quiet.setListening socket false).terminate socket).listening own =
        client.listening own := by
    intro own hne
    rw [listening_terminate, listening_setListening_ne hne, hlistening]
  obtain ⟨sockets, outbox, hdrop⟩ := drop_eq socket quiet
  rw [hdrop] at hopeners hlength hup hstate hlisten ⊢
  subst hquiet hleft
  refine ⟨_, rfl, ?_, rfl, rfl, rfl, rfl⟩
  exact h.dropped hcourse hcall hstage rfl rfl rfl rfl rfl rfl rfl hlength hopeners hup hstate
    hlisten

end SerialClient

end SerialPlatform.Desktop
