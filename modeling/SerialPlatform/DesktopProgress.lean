import SerialPlatform.DesktopConnection
import SerialPlatform.GuardedRuns

/-!
# The desktop client through every event

The events of sockets, timers and answers keep the connection in order; so does
`reconnectSocket` unless it overtakes its own earlier call.  Hence a client which is not
stopped and has no ready socket has a retry timer, a reconnect attempt or an explicit
`openSocket` on its way.
-/

namespace SerialPlatform.Desktop

namespace SerialClient

variable {client : SerialClient} {call : Call}

/-! ## Socket events -/

theorem opens_opening {own : SocketId} {stage : Stage} {socket : SocketId} {expected : Status}
    {awaiting : Awaiting} (h : Stage.opens own stage = .opening socket expected awaiting) :
    ∃ before, stage = .opening socket expected before ∧
      (awaiting = before ∧ handshakeOf own stage = false ∨
        before = .handshake ∧ socket = own ∧ awaiting = .opened) := by
  cases stage with
  | configuring => simp [Stage.opens] at h
  | loadingHistory => simp [Stage.opens] at h
  | opening mine status before =>
      cases before with
      | handshake =>
          simp only [Stage.opens] at h
          by_cases hown : mine = own
          · rw [if_pos hown] at h
            injection h with hsocket hstatus hawaiting
            subst hsocket hstatus
            exact ⟨_, rfl, Or.inr ⟨rfl, hown, hawaiting.symm⟩⟩
          · rw [if_neg hown] at h
            injection h with hsocket hstatus hawaiting
            subst hsocket hstatus
            exact ⟨_, rfl, Or.inl ⟨hawaiting.symm, by simp [handshakeOf, hown]⟩⟩
      | opened | failed =>
          simp only [Stage.opens, Stage.opening.injEq] at h
          obtain ⟨rfl, rfl, rfl⟩ := h
          exact ⟨_, rfl, Or.inl ⟨rfl, rfl⟩⟩
      | greeted actor accepted =>
          simp only [Stage.opens, Stage.opening.injEq] at h
          obtain ⟨rfl, rfl, rfl⟩ := h
          exact ⟨_, rfl, Or.inl ⟨rfl, rfl⟩⟩
      | attached actor result =>
          simp only [Stage.opens, Stage.opening.injEq] at h
          obtain ⟨rfl, rfl, rfl⟩ := h
          exact ⟨_, rfl, Or.inl ⟨rfl, rfl⟩⟩
      | attach actor attach =>
          simp only [Stage.opens, Stage.opening.injEq] at h
          obtain ⟨rfl, rfl, rfl⟩ := h
          exact ⟨_, rfl, Or.inl ⟨rfl, rfl⟩⟩
      | welcome hello welcomed accepted =>
          simp only [Stage.opens, Stage.opening.injEq] at h
          obtain ⟨rfl, rfl, rfl⟩ := h
          exact ⟨_, rfl, Or.inl ⟨rfl, rfl⟩⟩

theorem restages_opens (own : SocketId) :
    Restages fun call => { call with stage := call.stage.opens own } := by
  constructor
  · intro call
    rfl
  · intro call
    rfl
  · intro call socket expected awaiting hstage
    obtain ⟨before, hbefore, _⟩ := opens_opening hstage
    exact ⟨before, hbefore⟩
  · intro call socket expected awaiting hstage
    dsimp only
    rw [hstage]
    cases awaiting with
    | handshake =>
        simp only [Stage.opens]
        split <;> exact ⟨_, rfl⟩
    | opened | failed => exact ⟨_, rfl⟩
    | greeted actor accepted => exact ⟨_, rfl⟩
    | attached actor result => exact ⟨_, rfl⟩
    | attach actor attach => exact ⟨_, rfl⟩
    | welcome hello welcomed accepted => exact ⟨_, rfl⟩
  · intro call socket expected hstage
    dsimp only
    rw [hstage]
    rfl

/-- No callback waits to run. -/
def Quiet (client : SerialClient) : Prop :=
  ∀ call ∈ client.calls, call.isSettled = false

theorem Quiet.unsettled (h : client.Quiet) (hcall : call ∈ client.calls) {socket : SocketId}
    {expected : Status} {awaiting : Awaiting}
    (hstage : call.stage = .opening socket expected awaiting) : awaiting.isSettled = false := by
  have hfalse := h call hcall
  rw [Call.isSettled, hstage] at hfalse
  exact hfalse

/-- Every call which waits for an `open` event waits for this socket. -/
def OnlyHandshake (client : SerialClient) (socket : SocketId) : Prop :=
  ∀ call ∈ client.calls, ∀ own expected, call.stage = .opening own expected .handshake →
    own = socket

theorem up_setReadyState_ne {socket other : SocketId} {state : ReadyState}
    (h : other ≠ socket) :
    (client.setReadyState socket state).Up other ↔ client.Up other := by
  rw [Up, Up, readyState_setReadyState_ne h, listening_setReadyState]

theorem Connected.socketOpens (h : client.Connected) (hquiet : client.Quiet) {socket : SocketId}
    (hconnecting : client.readyState socket = .connecting)
    (honly : client.socket = some socket → client.OnlyHandshake socket) :
    (client.socketOpens socket).Connected := by
  have hrestages := restages_opens socket
  have hmade : socket < client.sockets.length := lt_of_readyState (by simp [hconnecting])
  have hsilent : client.listening socket = false := by
    by_contra hlistening
    rw [Bool.not_eq_false] at hlistening
    exact h.sockets.listen socket hlistening hconnecting
  have hopened : (client.setReadyState socket .opened).readyState socket = .opened :=
    readyState_setReadyState_self hmade
  refine ⟨?_, ?_, h.retried.restage hrestages rfl rfl rfl⟩
  · rw [course_socketOpens]
    exact h.course
  · refine h.sockets.restage hrestages rfl rfl rfl rfl rfl rfl length_setReadyState
      openers_setReadyState (fun _ => listening_setReadyState) ?_ (fun _ hmem => hmem)
      (fun _ hsome => hsome) ?_
    · intro own hlistening
      have hne : own ≠ socket := by
        intro hsame
        rw [hsame, hsilent] at hlistening
        simp at hlistening
      have hstate : (client.setReadyState socket .opened).readyState own =
        client.readyState own := readyState_setReadyState_ne hne
      intro hconnecting'
      have hconnecting'' : (client.setReadyState socket .opened).readyState own = .connecting :=
        hconnecting'
      rw [hstate] at hconnecting''
      exact h.sockets.listen own hlistening hconnecting''
    · intro call hcall
      have hfits := h.sockets.fits call hcall
      have hup : ∀ own, (client.socketOpens socket).Up own ↔
          (client.setReadyState socket .opened).Up own := fun own => Iff.rfl
      constructor
      · intro own expected awaiting hstage
        obtain ⟨before, hbefore, _⟩ := opens_opening hstage
        have hold := hfits.made hbefore
        have hlength : (client.setReadyState socket .opened).sockets.length =
          client.sockets.length := length_setReadyState
        exact hlength ▸ hold
      · intro own expected awaiting hstage hstale current hcurrent
        obtain ⟨before, hbefore, _⟩ := opens_opening hstage
        have hdown := hfits.overtaken hbefore hstale current hcurrent
        rw [hup]
        by_cases hsame : current = socket
        · -- The current socket opens, so a call which was overtaken waits for no socket.
          exfalso
          rw [hsame] at hcurrent
          have hunsettled := hquiet.unsettled hcall hbefore
          cases before with
          | handshake =>
              have hown := honly hcurrent call hcall own expected hbefore
              rw [hown] at hbefore
              exact (h.sockets.current_of_opening h.course.toOrderly hcall hbefore).2 hstale
                hcurrent
          | opened | failed => simp [Awaiting.isSettled] at hunsettled
          | greeted actor accepted => simp [Awaiting.isSettled] at hunsettled
          | attached actor result => simp [Awaiting.isSettled] at hunsettled
          | attach actor attach => exact hstale (hfits.conversing hbefore rfl).2.1
          | welcome hello welcomed accepted => exact hstale (hfits.conversing hbefore rfl).2.1
        · rw [up_setReadyState_ne hsame]
          exact hdown
      · intro own expected hstage
        obtain ⟨before, hbefore, ⟨hsame, hother⟩ | ⟨_, _, hother⟩⟩ := opens_opening hstage
        · rw [← hsame] at hbefore
          rw [hbefore] at hother
          have hne : own ≠ socket := by simpa [handshakeOf] using hother
          obtain ⟨hdown, hcurrent⟩ := hfits.handshake hbefore
          rw [hup, up_setReadyState_ne hne]
          exact ⟨hdown, hcurrent⟩
        · simp at hother
      · intro own expected hstage hversion
        obtain ⟨before, hbefore, ⟨hsame, _⟩ | ⟨hhandshake, hown, _⟩⟩ := opens_opening hstage
        · have hunsettled := hquiet.unsettled hcall hbefore
          rw [← hsame] at hunsettled
          simp [Awaiting.isSettled] at hunsettled
        · rw [hhandshake] at hbefore
          subst hown
          exact ⟨(hfits.handshake hbefore).2 hversion, hopened,
            listening_setReadyState.trans hsilent⟩
      · intro own expected awaiting hstage hconverses
        obtain ⟨before, hbefore, ⟨hsame, _⟩ | ⟨_, _, hother⟩⟩ := opens_opening hstage
        · rw [hsame] at hconverses
          obtain ⟨hcurrent, hversion, hlistening⟩ := hfits.conversing hbefore hconverses
          exact ⟨hcurrent, hversion, listening_setReadyState.trans hlistening⟩
        · rw [hother] at hconverses
          simp [Awaiting.converses] at hconverses
      · intro own expected hello welcomed hstage
        obtain ⟨before, hbefore, ⟨hsame, _⟩ | ⟨_, _, hother⟩⟩ := opens_opening hstage
        · rw [← hsame] at hbefore
          exact hfits.hello hbefore
        · simp at hother
      · intro own expected hello accepted hstage
        obtain ⟨before, hbefore, ⟨hsame, _⟩ | ⟨_, _, hother⟩⟩ := opens_opening hstage
        · rw [← hsame] at hbefore
          exact hfits.welcome hbefore
        · simp at hother
      · intro own expected hello actor reply hstage
        obtain ⟨before, hbefore, ⟨hsame, _⟩ | ⟨_, _, hother⟩⟩ := opens_opening hstage
        · rw [← hsame] at hbefore
          exact hfits.greeting hbefore
        · simp at hother
      · intro own expected actor request hstage
        obtain ⟨before, hbefore, ⟨hsame, _⟩ | ⟨_, _, hother⟩⟩ := opens_opening hstage
        · rw [← hsame] at hbefore
          exact hfits.attach hbefore
        · simp at hother

theorem Fits.grow (h : client.Fits call) (request : PendingRequest) :
    { client with pending := client.pending ++ [request] }.Fits call where
  made := h.made
  overtaken := h.overtaken
  handshake := h.handshake
  opened := h.opened
  conversing := h.conversing
  hello := by
    intro socket expected hello welcomed hstage
    rw [List.map_append]
    exact List.mem_append_left _ (h.hello hstage)
  welcome := h.welcome
  greeting := h.greeting
  attach := by
    intro socket expected actor attach hstage
    rw [List.map_append]
    exact List.mem_append_left _ (h.attach hstage)

/-- Between events the current socket listens once it is open. -/
theorem Connected.listening_of_opened (h : client.Connected) (hquiet : client.Quiet)
    {socket : SocketId} (hsocket : client.socket = some socket)
    (hopened : client.readyState socket = .opened) : client.listening socket = true := by
  cases h.sockets.held socket hsocket with
  | inl hready => exact (h.sockets.ready socket hready).2.1
  | inr hholder =>
      obtain ⟨holder, hholder, _, expected, awaiting, hstage⟩ := hholder
      have hunsettled := hquiet.unsettled hholder hstage
      have hfits := h.sockets.fits holder hholder
      cases awaiting with
      | handshake => exact absurd (Or.inl hopened) (hfits.handshake hstage).1
      | opened | failed => simp [Awaiting.isSettled] at hunsettled
      | greeted actor accepted => simp [Awaiting.isSettled] at hunsettled
      | attached actor result => simp [Awaiting.isSettled] at hunsettled
      | attach actor attach => exact (hfits.conversing hstage rfl).2.2
      | welcome hello welcomed accepted => exact (hfits.conversing hstage rfl).2.2

theorem Connected.request (h : client.Connected) (hquiet : client.Quiet) {next : SerialClient}
    {socket : SocketId} {uncertain : Bool} {codes : List String}
    (hnext : client.control socket .other uncertain codes = some next) : next.Connected := by
  rw [control] at hnext
  split at hnext
  · rename_i hopen
    cases hnext
    refine ⟨h.course.later, { h.sockets with fits := ?_, pending := ?_ }, h.retried⟩
    · intro call hcall
      exact ((h.sockets.fits call hcall).grow _).congr rfl rfl rfl rfl rfl
    · intro request hrequest
      cases List.mem_append.mp hrequest with
      | inl hold => exact h.sockets.pending request hold
      | inr hnew =>
          rw [List.mem_singleton.mp hnew]
          exact ⟨hopen.1, h.listening_of_opened hquiet hopen.1 hopen.2⟩
  · simp at hnext

theorem Connected.install (h : client.Connected) {next : SerialClient}
    {response : StatusResponse} (hnext : client.install response = some next) :
    next.Connected := by
  refine ⟨?_, ?_, ?_⟩
  · rw [course_install hnext]
    exact h.course.later
  all_goals
    unfold SerialClient.install at hnext
    split at hnext
    · simp at hnext
    · split at hnext
      · cases hnext
        first
          | exact h.sockets.congr rfl rfl rfl rfl rfl rfl rfl rfl rfl
          | exact h.retried
      · simp at hnext

/-- A socket which listens stays up when it begins to close. -/
theorem Connected.terminate (h : client.Connected) {socket : SocketId}
    (hlistening : client.listening socket = true) : (client.terminate socket).Connected := by
  have hstates : ∀ own, (client.terminate socket).Up own ↔ client.Up own := by
    intro own
    by_cases hsame : own = socket
    · subst hsame
      exact iff_of_true (Or.inr (listening_terminate.trans hlistening)) (Or.inr hlistening)
    · rw [Up, Up, readyState_terminate_ne hsame, listening_terminate]
  have hlength : (client.terminate socket).sockets.length = client.sockets.length :=
    length_terminate
  have hopeners : (client.terminate socket).openers = client.openers := openers_terminate
  have hlisten : ∀ own, (client.terminate socket).listening own = client.listening own :=
    fun own => listening_terminate
  have hreadyState : ∀ own, own ≠ socket →
      (client.terminate socket).readyState own = client.readyState own :=
    fun own hne => readyState_terminate_ne hne
  have hconnecting : (client.terminate socket).readyState socket ≠ .connecting := by
    cases @readyState_terminate_self client socket with
    | inl hclosed => simp [hclosed]
    | inr hclosing => simp [hclosing]
  have hcourse := course_terminate socket client
  have hshape : ∃ sockets outbox, client.terminate socket =
      { client with sockets := sockets, outbox := outbox } := by
    unfold SerialClient.terminate
    split
    · exact ⟨client.sockets, client.outbox, rfl⟩
    · exact ⟨_, _, rfl⟩
  obtain ⟨sockets, outbox, hshape⟩ := hshape
  rw [hshape] at hstates hlength hopeners hlisten hreadyState hconnecting hcourse ⊢
  refine ⟨?_, { h.sockets with
    fits := ?_, made := ?_, ready := ?_, pending := ?_, welcome := ?_, owner := ?_,
    listen := ?_ }, h.retried⟩
  · rw [hcourse]
    exact h.course
  · intro call hcall
    have hfits := h.sockets.fits call hcall
    refine { hfits with
      made := ?_, overtaken := ?_, handshake := ?_, opened := ?_, conversing := ?_ }
    · intro own expected awaiting hstage
      rw [hlength]
      exact hfits.made hstage
    · intro own expected awaiting hstage hstale current hcurrent
      rw [hstates]
      exact hfits.overtaken hstage hstale current hcurrent
    · intro own expected hstage
      rw [hstates]
      exact hfits.handshake hstage
    · intro own expected hstage hversion
      obtain ⟨hsocket, hopened, hsilent⟩ := hfits.opened hstage hversion
      have hne : own ≠ socket := by
        intro hsame
        rw [hsame, hlistening] at hsilent
        simp at hsilent
      rw [hreadyState own hne, hlisten]
      exact ⟨hsocket, hopened, hsilent⟩
    · intro own expected awaiting hstage
      rw [hlisten]
      exact hfits.conversing hstage
  · intro own
    rw [hlength]
    exact h.sockets.made own
  · intro own
    rw [hlisten]
    exact h.sockets.ready own
  · intro request
    rw [hlisten]
    exact h.sockets.pending request
  · intro welcome
    rw [hlisten]
    exact h.sockets.welcome welcome
  · intro own
    rw [hopeners]
    exact h.sockets.owner own
  · intro own hown
    by_cases hsame : own = socket
    · rw [hsame]
      exact hconnecting
    · rw [hlisten] at hown
      rw [hreadyState own hsame]
      exact h.sockets.listen own hown

theorem Retried.abandon (h : client.Retried) {socket : SocketId}
    (hwaits : ∀ call ∈ client.calls, client.Waits call)
    (hwelcome : ∀ welcome, client.pendingWelcome = some welcome → welcome.socket = socket) :
    ((client.rejectSocketHandshake socket).rejectPending).Retried := by
  rw [abandon_eq hwaits hwelcome]
  intro htimer call hcall hversion
  obtain ⟨before, hbefore, rfl⟩ := mem_quit hcall
  obtain ⟨own, expected, hfailed⟩ := h htimer before hbefore hversion
  exact ⟨own, expected, by simp [quit, hfailed, abandoned]⟩

theorem Connected.abandon (h : client.Connected) {socket : SocketId}
    (hwelcome : ∀ welcome, client.pendingWelcome = some welcome → welcome.socket = socket) :
    ((client.rejectSocketHandshake socket).rejectPending).Connected where
  course := by
    rw [course_rejectPending, course_rejectSocketHandshake]
    exact h.course
  sockets := h.sockets.abandon hwelcome
  retried := h.retried.abandon (fun call hcall => (h.sockets.fits call hcall).waits) hwelcome

theorem Sockets.welcome_of_socket (h : client.Sockets) {socket : SocketId}
    (hsocket : client.socket = some socket) (welcome : PendingWelcome)
    (hwelcome : client.pendingWelcome = some welcome) : welcome.socket = socket := by
  have hown := (h.welcome welcome hwelcome).1
  rw [hsocket, Option.some.injEq] at hown
  exact hown.symm

theorem listening_abandon {socket own : SocketId} :
    ((client.rejectSocketHandshake socket).rejectPending).listening own =
      client.listening own := by
  have hsockets : (client.rejectSocketHandshake socket).sockets = client.sockets := by
    unfold rejectSocketHandshake
    split
    · rfl
    · split <;> rfl
  simp only [listening, rejectPending, SerialClient.failCalls, mapStages, hsockets]

theorem Connected.receive (h : client.Connected) {socket : SocketId} {frame : ServerFrame}
    {next : SerialClient} (hsocket : client.socket = some socket)
    (hnext : client.receive socket frame = some next) : next.Connected := by
  obtain rfl | ⟨actor, rfl⟩ | ⟨request, _, outcome, rfl⟩ := receive_cases hnext
  · exact h
  · exact h.resolveWelcome actor hsocket
  · exact h.settleRequest request outcome

theorem Connected.onSocketMessage (h : client.Connected) {socket : SocketId}
    (hlistening : client.listening socket = true) (frame : ServerFrame) :
    (client.onSocketMessage socket frame).Connected := by
  unfold SerialClient.onSocketMessage
  split
  · exact h
  · rename_i hsocket
    rw [not_not] at hsocket
    split
    · rename_i next hnext
      exact h.receive hsocket hnext
    · split
      · exact h.terminate hlistening
      · exact (h.abandon (h.sockets.welcome_of_socket hsocket)).terminate
          (listening_abandon.trans hlistening)

/-- The `error` of a socket which is not current comes before the current one opens. -/
def Timely (client : SerialClient) (socket : SocketId) : Prop :=
  ∀ own, client.socket = some own → own = socket ∨ client.readyState own = .connecting

theorem Connected.onSocketError (h : client.Connected) {socket : SocketId}
    (htimely : client.Timely socket) : (client.onSocketError socket).Connected := by
  unfold SerialClient.onSocketError
  split
  · apply h.abandon
    intro welcome hwelcome
    obtain ⟨hsocket, hlistening⟩ := h.sockets.welcome welcome hwelcome
    cases htimely _ hsocket with
    | inl hsame => exact hsame
    | inr hconnecting => exact absurd hconnecting (h.sockets.listen _ hlistening)
  · exact h

/-! ## The socket is given up -/

/-- The client once its socket is given up and what waited is rejected. -/
def forsaken (client : SerialClient) : SerialClient :=
  { client with
    socket := none
    readySocket := none
    actor := none
    calls := client.calls.map quit
    pending := []
    pendingWelcome := none
    settlements := client.settlements ++ client.pending.map PendingRequest.lost }

theorem course_forsaken (client : SerialClient) :
    client.forsaken.course = { client.course with ready := false } := by
  simp [forsaken, SerialClient.course, Function.comp_def, quit, Call.key]

/-- The current socket is gone and what waited on it has failed. -/
theorem Sockets.givenUp (h : client.Sockets) (hquiet : client.Quiet) {next : SerialClient}
    (hcalls : next.calls = client.calls.map quit) (hsocket : next.socket = none)
    (hready : next.readySocket = none) (hpending : next.pending = [])
    (hwelcome : next.pendingWelcome = none)
    (hlength : next.sockets.length = client.sockets.length)
    (hup : ∀ own, next.Up own → client.Up own)
    (hlisten : ∀ own, next.listening own = true → next.readyState own ≠ .connecting)
    (hhandshake : ∀ call ∈ client.calls, ∀ own expected,
      call.stage = .opening own expected .handshake → call.version ≠ next.connectionVersion) :
    next.Sockets where
  fits := by
    intro call hcall
    rw [hcalls] at hcall
    obtain ⟨before, hbefore, rfl⟩ := mem_quit hcall
    have hfits := h.fits before hbefore
    -- A call has failed or still waits for its socket to open.
    have hstages : ∀ {own expected awaiting}, (quit before).stage = .opening own expected awaiting →
        awaiting = .failed ∨
          awaiting = .handshake ∧ before.stage = .opening own expected .handshake := by
      intro own expected awaiting hstage
      obtain ⟨old, hold, ⟨hsame, hsettled⟩ | ⟨hfailed, _⟩⟩ := abandoned_opening hstage
      · have hunsettled := hquiet.unsettled hbefore hold
        rw [← hsame] at hold hsettled hunsettled
        cases awaiting with
        | handshake => exact Or.inr ⟨rfl, hold⟩
        | opened | failed => simp [Awaiting.isSettled] at hunsettled
        | greeted actor accepted => simp [Awaiting.isSettled] at hunsettled
        | attached actor result => simp [Awaiting.isSettled] at hunsettled
        | attach actor attach => simp [Awaiting.converses, Awaiting.isSettled] at hsettled
        | welcome hello welcomed accepted =>
            simp [Awaiting.converses, Awaiting.isSettled] at hsettled
      · exact Or.inl hfailed
    constructor
    · intro own expected awaiting hstage
      obtain ⟨old, hold, _⟩ := abandoned_opening hstage
      rw [hlength]
      exact hfits.made hold
    · intro own expected awaiting hstage hstale current hcurrent
      simp [hsocket] at hcurrent
    · intro own expected hstage
      obtain hfailed | ⟨_, hold⟩ := hstages hstage
      · simp at hfailed
      · refine ⟨fun hnext => (hfits.handshake hold).1 (hup own hnext), ?_⟩
        intro hversion
        exact absurd hversion (hhandshake before hbefore own expected hold)
    · intro own expected hstage
      obtain hfailed | ⟨hother, _⟩ := hstages hstage
      · simp at hfailed
      · simp at hother
    · intro own expected awaiting hstage hconverses
      obtain hfailed | ⟨hother, _⟩ := hstages hstage
      · rw [hfailed] at hconverses
        simp [Awaiting.converses] at hconverses
      · rw [hother] at hconverses
        simp [Awaiting.converses] at hconverses
    · intro own expected hello welcomed hstage
      obtain hfailed | ⟨hother, _⟩ := hstages hstage
      · simp at hfailed
      · simp at hother
    · intro own expected hello accepted hstage
      obtain hfailed | ⟨hother, _⟩ := hstages hstage
      · simp at hfailed
      · simp at hother
    · intro own expected hello actor reply hstage
      obtain hfailed | ⟨hother, _⟩ := hstages hstage
      · simp at hfailed
      · simp at hother
    · intro own expected actor request hstage
      obtain hfailed | ⟨hother, _⟩ := hstages hstage
      · simp at hfailed
      · simp at hother
  apart := by
    intro first hfirst second hsecond own _ _ _ _ hstage hstage'
    rw [hcalls] at hfirst hsecond
    obtain ⟨before, hbefore, rfl⟩ := mem_quit hfirst
    obtain ⟨before', hbefore', rfl⟩ := mem_quit hsecond
    obtain ⟨_, hopening, _⟩ := abandoned_opening hstage
    obtain ⟨_, hopening', _⟩ := abandoned_opening hstage'
    exact h.apart before hbefore before' hbefore' hopening hopening'
  made := by
    intro own hown
    simp [hsocket] at hown
  stopped := fun _ => hsocket
  ready := by
    intro own hown
    simp [hready] at hown
  held := by
    intro own hown
    simp [hsocket] at hown
  pending := by
    intro request hrequest
    simp [hpending] at hrequest
  welcome := by
    intro welcome hsome
    simp [hwelcome] at hsome
  owner := by
    intro own hown
    simp [hsocket] at hown
  listen := hlisten

/-- A socket has closed. -/
theorem Connected.setClosed (h : client.Connected) (hquiet : client.Quiet) (socket : SocketId) :
    (client.setReadyState socket .closed).Connected := by
  have hlength : (client.setReadyState socket .closed).sockets.length = client.sockets.length :=
    length_setReadyState
  have hopeners : (client.setReadyState socket .closed).openers = client.openers :=
    openers_setReadyState
  have hlisten : ∀ own, (client.setReadyState socket .closed).listening own =
      client.listening own := fun own => listening_setReadyState
  have hclosed : (client.setReadyState socket .closed).readyState socket = .closed := by
    by_cases hmade : socket < client.sockets.length
    · exact readyState_setReadyState_self hmade
    · by_contra hne
      have hmade' := lt_of_readyState hne
      rw [hlength] at hmade'
      exact hmade hmade'
  have hup : ∀ own, (client.setReadyState socket .closed).Up own → client.Up own := by
    intro own hown
    by_cases hsame : own = socket
    · rw [hsame] at hown ⊢
      cases hown with
      | inl hopened => simp [hclosed] at hopened
      | inr hlistening => exact Or.inr ((hlisten socket).symm.trans hlistening)
    · exact (up_setReadyState_ne hsame).mp hown
  refine ⟨?_, { h.sockets with
    fits := ?_, made := ?_, ready := ?_, pending := ?_, welcome := ?_, owner := ?_,
    listen := ?_ }, h.retried⟩
  · rw [course_setReadyState]
    exact h.course
  · intro call hcall
    have hfits := h.sockets.fits call hcall
    refine { hfits with
      made := ?_, overtaken := ?_, handshake := ?_, opened := ?_, conversing := ?_ }
    · intro own expected awaiting hstage
      rw [hlength]
      exact hfits.made hstage
    · intro own expected awaiting hstage hstale current hcurrent hnext
      exact hfits.overtaken hstage hstale current hcurrent (hup current hnext)
    · intro own expected hstage
      obtain ⟨hdown, hcurrent⟩ := hfits.handshake hstage
      exact ⟨fun hnext => hdown (hup own hnext), hcurrent⟩
    · intro own expected hstage
      have hunsettled := hquiet.unsettled hcall hstage
      simp [Awaiting.isSettled] at hunsettled
    · intro own expected awaiting hstage
      rw [hlisten]
      exact hfits.conversing hstage
  · intro own
    rw [hlength]
    exact h.sockets.made own
  · intro own
    rw [hlisten]
    exact h.sockets.ready own
  · intro request
    rw [hlisten]
    exact h.sockets.pending request
  · intro welcome
    rw [hlisten]
    exact h.sockets.welcome welcome
  · intro own
    rw [hopeners]
    exact h.sockets.owner own
  · intro own hown
    by_cases hsame : own = socket
    · rw [hsame, hclosed]
      simp
    · rw [hlisten] at hown
      rw [readyState_setReadyState_ne hsame]
      exact h.sockets.listen own hown

theorem schedule_eq (client : SerialClient) : ∃ loop timers nextId, client.schedule =
    { client with reconnectLoop := loop, timers := timers, nextId := nextId } := by
  unfold SerialClient.schedule
  split
  · exact ⟨client.reconnectLoop, client.timers, client.nextId, rfl⟩
  · exact ⟨_, _, _, rfl⟩

/-- The current socket closes. -/
theorem Sockets.onSocketClose_eq (h : client.Sockets) {socket : SocketId}
    (hstopped : client.stopped = false) (hsocket : client.socket = some socket) :
    client.onSocketClose socket = client.forsaken.schedule := by
  unfold SerialClient.onSocketClose
  rw [if_neg (by simp [hstopped, hsocket])]
  have hreadySocket : (if client.readySocket = some socket then none else client.readySocket) =
      none := by
    cases hready : client.readySocket with
    | none => simp
    | some own =>
        have hown := (h.ready own hready).1
        rw [hsocket, Option.some.injEq] at hown
        simp [hown]
  have habandon : (SerialClient.rejectPending (SerialClient.rejectSocketHandshake socket
      { client with
        socket := none
        readySocket :=
          if client.readySocket = some socket then none else client.readySocket })) =
      { client.forsaken with actor := client.actor } := by
    rw [hreadySocket]
    apply abandon_eq
    · intro call hcall
      have hwaits := (h.fits call hcall).waits
      exact ⟨hwaits.hello, hwaits.welcome, hwaits.greeting, hwaits.attach⟩
    · exact h.welcome_of_socket hsocket
  dsimp only
  rw [habandon]
  rfl

theorem Connected.onSocketClose (h : client.Connected) (hquiet : client.Quiet)
    {socket : SocketId} (hlistening : client.listening socket = true) :
    (client.onSocketClose socket).Connected := by
  by_cases hlive : client.stopped = true ∨ client.socket ≠ some socket
  · unfold SerialClient.onSocketClose
    rw [if_pos hlive]
    exact h
  · simp only [not_or, not_not, Bool.not_eq_true] at hlive
    obtain ⟨hstopped, hsocket⟩ := hlive
    rw [h.sockets.onSocketClose_eq hstopped hsocket]
    -- The current call, if there is one, talked on the socket which is lost.
    have hholder : ∀ call ∈ client.calls, call.version = client.connectionVersion →
        ∃ expected awaiting, call.stage = .opening socket expected awaiting ∧
          awaiting.converses = true := by
      intro call hcall hversion
      cases h.sockets.held socket hsocket with
      | inl hready =>
          have hsome : client.course.ready = true := by simp [SerialClient.course, hready]
          exact absurd hversion ((h.course.ready hsome).2.2 call.key (key_mem hcall))
      | inr hholder =>
          obtain ⟨holder, hholder, hnow, expected, awaiting, hstage⟩ := hholder
          rw [eq_of_current h.course.toOrderly hholder hcall hnow hversion] at hstage
          refine ⟨expected, awaiting, hstage, ?_⟩
          have hunsettled := hquiet.unsettled hcall hstage
          cases awaiting with
          | handshake =>
              exact absurd (Or.inr hlistening) ((h.sockets.fits call hcall).handshake hstage).1
          | opened | failed => simp [Awaiting.isSettled] at hunsettled
          | greeted actor accepted => rfl
          | attached actor result => rfl
          | attach actor attach => rfl
          | welcome hello welcomed accepted => rfl
    obtain ⟨loop, timers, nextId, hschedule⟩ := schedule_eq client.forsaken
    refine ⟨?_, ?_, ?_⟩
    · rw [course_schedule, course_forsaken]
      exact h.course.lost hstopped
    · rw [hschedule]
      refine h.sockets.givenUp hquiet rfl rfl rfl rfl rfl rfl (fun _ hup => hup)
        h.sockets.listen ?_
      intro call hcall own expected hstage hversion
      obtain ⟨_, _, hopening, hconverses⟩ := hholder call hcall hversion
      rw [hstage] at hopening
      injection hopening with _ _ hsame
      rw [← hsame] at hconverses
      simp [Awaiting.converses] at hconverses
    · rw [hschedule]
      intro _ call hcall hversion
      obtain ⟨before, hbefore, rfl⟩ := mem_quit hcall
      obtain ⟨expected, awaiting, hopening, hconverses⟩ := hholder before hbefore hversion
      have hunsettled := hquiet.unsettled hbefore hopening
      refine ⟨socket, expected, ?_⟩
      rw [quit, hopening]
      cases awaiting with
      | handshake | opened | failed => simp [Awaiting.converses] at hconverses
      | greeted actor accepted => simp [Awaiting.isSettled] at hunsettled
      | attached actor result => simp [Awaiting.isSettled] at hunsettled
      | attach actor attach => rfl
      | welcome hello welcomed accepted => rfl

/-! ## A call begins -/

/-- A call which uses no socket joins those under way. -/
theorem Sockets.join (h : client.Sockets) (hidle : Idle call) :
    { client with calls := client.calls ++ [call] }.Sockets := by
  have hmem : ∀ other ∈ client.calls ++ [call], other ∈ client.calls ∨ Idle other := by
    intro other hother
    cases List.mem_append.mp hother with
    | inl hold => exact Or.inl hold
    | inr hnew =>
        rw [List.mem_singleton.mp hnew]
        exact Or.inr hidle
  refine { h with fits := ?_, apart := ?_, held := ?_ }
  · intro other hother
    cases hmem other hother with
    | inl hold => exact (h.fits other hold).congr rfl rfl rfl rfl rfl
    | inr hidle' => exact hidle'.fits
  · intro first hfirst second hsecond own _ _ _ _ hstage hstage'
    cases hmem first hfirst with
    | inr hidle' => exact absurd hstage (hidle' _ _ _)
    | inl hold =>
        cases hmem second hsecond with
        | inr hidle' => exact absurd hstage' (hidle' _ _ _)
        | inl hold' => exact h.apart first hold second hold' hstage hstage'
  · intro own hown
    cases h.held own hown with
    | inl hready => exact Or.inl hready
    | inr hholder =>
        obtain ⟨holder, hholder, hrest⟩ := hholder
        exact Or.inr ⟨holder, List.mem_append_left _ hholder, hrest⟩

/-- A call which uses no socket goes. -/
theorem Sockets.leave (h : client.Sockets) (hcourse : client.course.Orderly)
    (hcall : call ∈ client.calls) (hidle : Idle call) : (client.endCall call.id).Sockets := by
  refine { h with fits := ?_, apart := ?_, held := ?_ }
  · intro other hother
    exact (h.fits other (mem_endCall.mp hother).1).congr rfl rfl rfl rfl rfl
  · intro first hfirst second hsecond
    exact h.apart first (mem_endCall.mp hfirst).1 second (mem_endCall.mp hsecond).1
  · intro own hown
    cases h.held own hown with
    | inl hready => exact Or.inl hready
    | inr hholder =>
        obtain ⟨holder, hholder, hversion, expected, awaiting, hstage⟩ := hholder
        have hid : holder.id ≠ call.id := by
          intro hid
          rw [eq_of_id hcourse hholder hcall hid] at hstage
          exact hidle _ _ _ hstage
        exact Or.inr ⟨holder, mem_endCall.mpr ⟨hholder, hid⟩, hversion, expected, awaiting, hstage⟩

theorem Connected.idle_now (h : client.Connected) (hquiet : client.Quiet)
    (htimer : client.reconnectLoop.timer ≠ none) :
    ∀ call ∈ client.calls, call.version ≠ client.connectionVersion := by
  intro call hcall hversion
  obtain ⟨socket, expected, hfailed⟩ := h.retried htimer call hcall hversion
  have hunsettled := hquiet.unsettled hcall hfailed
  simp [Awaiting.isSettled] at hunsettled

theorem Connected.timerExpires (h : client.Connected) (hquiet : client.Quiet)
    {timer : RetryTimer} (htimer : timer ∈ client.timers) :
    (client.timerExpires timer).Connected := by
  obtain ⟨_, hloop, hgeneration⟩ := h.course.timer_of_mem htimer
  have hset : client.reconnectLoop.timer ≠ none := by
    have hsome : client.reconnectLoop.timer = some timer.id := hloop
    simp [hsome]
  have hcurrent : ¬timer.generation ≠ client.reconnectLoop.generation := by
    rw [not_not]
    exact Eq.trans hgeneration h.course.generation.symm
  unfold SerialClient.timerExpires
  rw [if_neg hcurrent]
  refine ⟨?_, ?_, Retried.of_none rfl⟩
  · have hattempt := h.course.attempt htimer fun key hkey => by
      obtain ⟨call, hcall, rfl⟩ := List.mem_map.mp hkey
      exact h.idle_now hquiet hset call hcall
    have hsame : ∀ next : SerialClient, next.course = client.course.attempt timer →
        next.course.Steady := fun next hnext => hnext ▸ hattempt
    apply hsame
    simp [SerialClient.course, Course.attempt, Call.key]
  · have hjoin := @Sockets.join client ⟨client.nextId, .run timer.generation,
      client.connectionVersion, .configuring⟩ h.sockets (fun _ _ _ hstage => by simp at hstage)
    exact hjoin.congr rfl rfl rfl rfl rfl rfl rfl rfl rfl

/-! ## `refresh` -/

/-- The call goes on to load the history, if it does not use a socket. -/
def loadHistory (id : ℕ) (call : Call) : Call :=
  if call.id = id then
    match call.stage with
    | .opening _ _ _ => call
    | .configuring | .loadingHistory => { call with stage := .loadingHistory }
  else call

theorem loadHistory_ne {id : ℕ} (h : call.id ≠ id) : loadHistory id call = call := by
  rw [loadHistory, if_neg h]

theorem loadHistory_opening {id : ℕ} {socket : SocketId} {expected : Status}
    {awaiting : Awaiting} (h : call.stage = .opening socket expected awaiting) :
    loadHistory id call = call := by
  simp [loadHistory, h]

theorem restages_loadHistory (id : ℕ) : Restages (loadHistory id) := by
  have hkept : ∀ call : Call, (loadHistory id call).id = call.id ∧
      (loadHistory id call).caller = call.caller ∧ (loadHistory id call).version = call.version := by
    intro call
    by_cases hid : call.id = id
    · cases hstage : call.stage <;> simp [loadHistory, hid, hstage]
    · simp [loadHistory_ne hid]
  constructor
  · intro call
    exact (hkept call).1
  · intro call
    exact (hkept call).2.2
  · intro call socket expected awaiting hopening
    by_cases hid : call.id = id
    · cases hstage : call.stage with
      | configuring => simp [loadHistory, hid, hstage] at hopening
      | loadingHistory => simp [loadHistory, hid, hstage] at hopening
      | opening own status before =>
          rw [loadHistory_opening hstage, hstage] at hopening
          exact ⟨awaiting, hopening⟩
    · rw [loadHistory_ne hid] at hopening
      exact ⟨awaiting, hopening⟩
  · intro call socket expected awaiting hopening
    rw [loadHistory_opening hopening]
    exact ⟨awaiting, hopening⟩
  · intro call socket expected hopening
    rw [loadHistory_opening hopening]
    exact hopening

theorem Connected.configured (h : client.Connected) (hcall : call ∈ client.calls)
    (hstage : call.stage = .configuring) (response : Option StatusResponse) :
    (client.configured call response).Connected := by
  have hidle : Idle call := by
    intro socket expected awaiting hopening
    rw [hstage] at hopening
    simp at hopening
  unfold SerialClient.configured
  split
  · refine ⟨?_, ?_, ?_⟩
    · rw [course_callerThrows, course_endCall]
      by_cases hversion : call.version = client.connectionVersion
      · exact h.course.throws_current (key_mem hcall) hversion
      · exact (h.course.ends_stale (key_mem hcall) hversion).2
    · exact (h.sockets.leave h.course.toOrderly hcall hidle).callerThrows call.caller
    · have hended : ((client.endCall call.id).callerThrows call.caller).Retried := by
        refine @Connected.retried_throws client call h hcall (client.endCall call.id) ?_ rfl rfl
        intro other hother
        obtain ⟨hold, hid⟩ := mem_endCall.mp hother
        exact ⟨other, hold, hid, rfl, fun _ _ hfailed => hfailed⟩
      exact hended
  · rename_i refreshed hrefreshed
    obtain ⟨response, _, hinstall⟩ := Option.bind_eq_some_iff.mp hrefreshed
    have hnext := h.install hinstall
    have hcalls : refreshed.calls = client.calls := by
      unfold SerialClient.install at hinstall
      split at hinstall
      · simp at hinstall
      · split at hinstall
        · cases hinstall
          rfl
        · simp at hinstall
    have hcall' : call ∈ refreshed.calls := by
      rw [hcalls]
      exact hcall
    -- Calls which use a socket are not this one.
    have hequal : refreshed.setStage call.id .loadingHistory =
        { refreshed with calls := refreshed.calls.map (loadHistory call.id) } := by
      simp only [setStage, SerialClient.mk.injEq, true_and, and_true]
      apply List.map_congr_left
      intro other hother
      by_cases hid : other.id = call.id
      · rw [eq_of_id hnext.course.toOrderly hother hcall' hid, if_pos rfl, loadHistory, hstage]
        simp
      · rw [if_neg hid, loadHistory_ne hid]
    refine ⟨?_, ?_, ?_⟩
    · rw [course_setStage]
      exact hnext.course
    · rw [hequal]
      refine hnext.sockets.restage (restages_loadHistory call.id) rfl rfl rfl rfl rfl rfl rfl rfl
        (fun _ => rfl) hnext.sockets.listen (fun _ hmem => hmem) (fun _ hsome => hsome) ?_
      intro other hother
      by_cases hid : other.id = call.id
      · rw [eq_of_id hnext.course.toOrderly hother hcall' hid]
        apply Idle.fits
        intro socket expected awaiting hopening
        simp [loadHistory, hstage] at hopening
      · rw [loadHistory_ne hid]
        exact (hnext.sockets.fits other hother).congr rfl rfl rfl rfl rfl
    · rw [hequal]
      exact hnext.retried.restage (restages_loadHistory call.id) rfl rfl rfl

/-- A current call which uses no socket begins to open one. -/
theorem Connected.beginOpen (h : client.Connected) (hcall : call ∈ client.calls)
    (hversion : call.version = client.connectionVersion) (hidle : Idle call) :
    (client.beginOpen call).Connected := by
  have hstopped : client.stopped = false := by
    by_contra hstop
    rw [Bool.not_eq_false] at hstop
    exact (h.course.stopped hstop).2 call.key (key_mem hcall) hversion
  have hready : client.readySocket = none := by
    by_contra hready
    have hsome : client.course.ready = true := Option.isSome_iff_ne_none.mpr hready
    exact (h.course.ready hsome).2.2 call.key (key_mem hcall) hversion
  have hsocket : client.socket = none := by
    by_contra hsome
    obtain ⟨own, hown⟩ := Option.ne_none_iff_exists'.mp hsome
    cases h.sockets.held own hown with
    | inl hreadySocket => simp [hready] at hreadySocket
    | inr hholder =>
        obtain ⟨holder, hholder, hnow, expected, awaiting, hstage⟩ := hholder
        rw [eq_of_current h.course.toOrderly hholder hcall hnow hversion] at hstage
        exact hidle _ _ _ hstage
  obtain ⟨hpending, hwelcome, _⟩ := h.sockets.silent fun own hown => by simp [hsocket] at hown
  have htimer := h.retried.no_timer hcall hversion (fun _ _ => hidle _ _ _)
  unfold SerialClient.beginOpen
  rw [if_neg (by simp [hstopped])]
  generalize hnext : ({ client.setStage call.id
      (.opening client.sockets.length client.status .handshake) with
    sockets := client.sockets ++ [⟨.connecting, false, call.caller⟩]
    socket := some client.sockets.length } : SerialClient) = next
  have hsockets : next.sockets = client.sockets ++ [⟨.connecting, false, call.caller⟩] := by
    subst hnext
    rfl
  have hold : ∀ own < client.sockets.length,
      next.readyState own = client.readyState own ∧
        next.listening own = client.listening own := by
    intro own hlt
    rw [readyState, readyState, listening, listening, hsockets, List.getElem?_append_left hlt]
    exact ⟨rfl, rfl⟩
  have hnew : next.sockets[client.sockets.length]? = some ⟨.connecting, false, call.caller⟩ := by
    rw [hsockets]
    simp
  have hnewDown : ¬next.Up client.sockets.length := by
    rw [Up, readyState, listening, hnew]
    simp
  have hlength : next.sockets.length = client.sockets.length + 1 := by
    rw [hsockets]
    simp
  have hup : ∀ own < client.sockets.length, next.Up own ↔ client.Up own := by
    intro own hlt
    rw [Up, Up, (hold own hlt).1, (hold own hlt).2]
  have hsocket' : next.socket = some client.sockets.length := by
    subst hnext
    rfl
  have hversion' : next.connectionVersion = client.connectionVersion := by
    subst hnext
    rfl
  have hmem : ∀ other ∈ next.calls, (other ∈ client.calls ∧ other.id ≠ call.id) ∨
      other = { call with stage := .opening client.sockets.length client.status .handshake } := by
    intro other hother
    rw [← hnext] at hother
    obtain ⟨before, hbefore, hsame⟩ := mem_setStage hother
    by_cases hid : before.id = call.id
    · right
      rw [hsame, if_pos hid, eq_of_id h.course.toOrderly hbefore hcall hid]
    · left
      rw [hsame, if_neg hid]
      exact ⟨hbefore, hid⟩
  -- The call is the only one of its version.
  have hstale : ∀ other ∈ client.calls, other.id ≠ call.id →
      other.version ≠ next.connectionVersion := by
    intro other hother hid hnow
    rw [hversion'] at hnow
    exact hid (congrArg Call.id (eq_of_current h.course.toOrderly hother hcall hnow hversion))
  refine ⟨?_, ?_, ?_⟩
  · have hcourse : next.course = client.course := by
      have hstage := course_setStage call.id
        (.opening client.sockets.length client.status .handshake) client
      rw [← hnext, ← hstage]
      rfl
    rw [hcourse]
    exact h.course
  · constructor
    · intro other hother
      obtain ⟨hother', hid⟩ | rfl := hmem other hother
      · have hfits := h.sockets.fits other hother'
        constructor
        · intro own expected awaiting hstage
          rw [hlength]
          exact Nat.lt_succ_of_lt (hfits.made hstage)
        · intro own expected awaiting _ _ current hcurrent
          rw [hsocket', Option.some.injEq] at hcurrent
          rw [← hcurrent]
          exact hnewDown
        · intro own expected hstage
          rw [hup own (hfits.made hstage)]
          exact ⟨(hfits.handshake hstage).1, fun hnow => absurd hnow (hstale other hother' hid)⟩
        · intro own expected hstage hnow
          exact absurd hnow (hstale other hother' hid)
        · intro own expected awaiting hstage hconverses
          have hown := (hfits.conversing hstage hconverses).1
          simp [hsocket] at hown
        · intro own expected hello welcomed hstage
          have hhello := hfits.hello hstage
          simp [hpending] at hhello
        · intro own expected hello accepted hstage
          have hnone := hfits.welcome hstage
          simp [hwelcome] at hnone
        · exact hfits.greeting
        · intro own expected actor request hstage
          have hattach := hfits.attach hstage
          simp [hpending] at hattach
      · constructor
        · intro own expected awaiting hstage
          injection hstage with hown
          rw [hlength, ← hown]
          exact Nat.lt_succ_self _
        · intro own expected awaiting _ hnow
          exact absurd (hversion.trans hversion'.symm) hnow
        · intro own expected hstage
          injection hstage with hown
          rw [← hown]
          exact ⟨hnewDown, fun _ => hsocket'⟩
        · intro own expected hstage
          simp at hstage
        · intro own expected awaiting hstage hconverses
          injection hstage with _ _ hstage
          rw [← hstage] at hconverses
          simp [Awaiting.converses] at hconverses
        · intro own expected hello welcomed hstage
          simp at hstage
        · intro own expected hello accepted hstage
          simp at hstage
        · intro own expected hello actor reply hstage
          simp at hstage
        · intro own expected actor request hstage
          simp at hstage
    · intro first hfirst second hsecond own _ _ _ _ hstage hstage'
      obtain ⟨hfirst', _⟩ | rfl := hmem first hfirst
      · obtain ⟨hsecond', _⟩ | rfl := hmem second hsecond
        · exact h.sockets.apart first hfirst' second hsecond' hstage hstage'
        · injection hstage' with hown
          have hmade := (h.sockets.fits first hfirst').made hstage
          exact absurd hown (Nat.ne_of_gt hmade)
      · obtain ⟨hsecond', _⟩ | rfl := hmem second hsecond
        · injection hstage with hown
          have hmade := (h.sockets.fits second hsecond').made hstage'
          exact absurd hown (Nat.ne_of_gt hmade)
        · rfl
    · intro own hown
      rw [hsocket', Option.some.injEq] at hown
      rw [hlength, ← hown]
      exact Nat.lt_succ_self _
    · intro hstop
      rw [← hnext] at hstop
      have hstop' : client.stopped = true := hstop
      simp [hstopped] at hstop'
    · intro own hown
      rw [← hnext] at hown
      have hown' : client.readySocket = some own := hown
      simp [hready] at hown'
    · intro own hown
      rw [hsocket', Option.some.injEq] at hown
      right
      refine ⟨{ call with stage := .opening client.sockets.length client.status .handshake },
        ?_, hversion.trans hversion'.symm, client.status, .handshake, by rw [← hown]⟩
      rw [← hnext]
      exact setStage_mem hcall rfl
    · intro request hrequest
      rw [← hnext] at hrequest
      have hmember : request ∈ client.pending := hrequest
      simp [hpending] at hmember
    · intro welcome hsome
      rw [← hnext] at hsome
      have hsome' : client.pendingWelcome = some welcome := hsome
      simp [hwelcome] at hsome'
    · intro own hown generation hopener
      rw [hsocket', Option.some.injEq] at hown
      rw [← hown, openers, List.getElem?_map, hnew, Option.map_some, Option.some.injEq] at hopener
      have hcaller : call.caller = .run generation := hopener
      rw [hversion']
      cases h.course.callers call.key (key_mem hcall) with
      | inl hrun =>
          have hown' : call.caller = .run call.version := hrun
          rw [hcaller] at hown'
          exact (Caller.run.inj hown').trans hversion
      | inr hexplicit =>
          have hown' : call.caller = .reconnectSocket := hexplicit.1
          rw [hcaller] at hown'
          simp at hown'
    · intro own hlistening
      by_cases hlt : own < client.sockets.length
      · rw [(hold own hlt).2] at hlistening
        rw [(hold own hlt).1]
        exact h.sockets.listen own hlistening
      · have hmade := lt_of_listening hlistening
        rw [hlength] at hmade
        have hlast : own = client.sockets.length :=
          Nat.le_antisymm (Nat.lt_succ_iff.mp hmade) (Nat.not_lt.mp hlt)
        rw [hlast] at hlistening
        exact absurd (Or.inr hlistening) hnewDown
  · apply Retried.of_none
    rw [← hnext]
    exact htimer

end SerialClient

end SerialPlatform.Desktop
