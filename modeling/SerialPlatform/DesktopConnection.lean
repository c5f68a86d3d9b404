import SerialPlatform.DesktopSockets

/-!
# The desktop client works towards a connection

Each event keeps the course of the reconnect loop and the use of the sockets in order, as
long as sockets which were given up report before their successor opens and
`reconnectSocket` is not called while an earlier call of it still opens its socket.
-/

namespace SerialPlatform.Desktop

namespace SerialClient

variable {client : SerialClient} {call : Call}

structure Connected (client : SerialClient) : Prop where
  course : client.course.Steady
  sockets : client.Sockets
  retried : client.Retried

/-! ## `openSocket` -/

theorem openThrows_course (socket : SocketId) :
    (client.openThrows call socket).course =
      { (client.course.endCall call.id) with
        ready := if client.readySocket = some socket then false else client.course.ready
      }.callerThrows call.caller := by
  unfold openThrows
  rw [course_callerThrows, course_terminate, course_setListening, course_rejectPending,
    course_rejectSocketHandshake]
  congr 1
  have hended := course_endCall call.id client
  rw [← hended]
  simp only [course, endCall]
  by_cases hready : client.readySocket = some socket
  · simp [hready]
  · simp [hready]

/-- A call in `openSocket` never holds the ready socket. -/
theorem Sockets.not_ready (h : client.Sockets) (hcourse : client.course.Orderly)
    (hcall : call ∈ client.calls) {socket : SocketId} {expected : Status} {awaiting : Awaiting}
    (hstage : call.stage = .opening socket expected awaiting) :
    client.readySocket ≠ some socket := by
  intro hready
  obtain ⟨hcurrent, hstale⟩ := h.current_of_opening hcourse hcall hstage
  by_cases hversion : call.version = client.connectionVersion
  · simp [(hcurrent hversion).1] at hready
  · exact hstale hversion (h.ready socket hready).1

/-- What `openSocket` or `refresh` leaves behind when it throws: calls which were there and
have failed have failed still. -/
theorem Connected.retried_throws (h : client.Connected) (hcall : call ∈ client.calls)
    {next : SerialClient}
    (hcalls : ∀ other ∈ next.calls, ∃ before ∈ client.calls, before.id ≠ call.id ∧
      other.version = before.version ∧
        ∀ socket expected, before.stage = .opening socket expected .failed →
          other.stage = .opening socket expected .failed)
    (hloop : next.reconnectLoop = client.reconnectLoop)
    (hconnection : next.connectionVersion = client.connectionVersion) :
    (next.callerThrows call.caller).Retried := by
  obtain ⟨loop, timers, nextId, hthrown⟩ := callerThrows_eq call.caller next
  intro htimer other hother hversion
  rw [hthrown] at hother hversion
  obtain ⟨before, hold, hid, hsame, hfailed⟩ := hcalls other hother
  have hnow : before.version = client.connectionVersion :=
    (hsame.symm.trans hversion).trans hconnection
  have hstale : call.version ≠ client.connectionVersion := by
    intro hcurrent
    exact hid (congrArg Call.id (eq_of_current h.course.toOrderly hold hcall hnow hcurrent))
  have hrunning : client.stopped = false := by
    by_contra hstop
    rw [Bool.not_eq_false] at hstop
    exact (h.course.stopped hstop).2 before.key (key_mem hold) hnow
  -- An overtaken call of a client which is not stopped is an attempt and sets no timer.
  have hkept : (next.callerThrows call.caller).reconnectLoop.timer =
      client.reconnectLoop.timer := by
    cases h.course.callers call.key (key_mem hcall) with
    | inl hrun =>
        have hcaller : call.caller = .run call.version := hrun
        have hgeneration : call.version ≠ next.reconnectLoop.generation := by
          rw [hloop]
          exact fun hg => hstale (hg.trans h.course.generation)
        rw [hcaller, SerialClient.callerThrows, runEnds, if_neg (fun hg => hgeneration hg.1)]
        have htimers := congrArg ReconnectLoop.timer hloop
        exact htimers
    | inr hexplicit =>
        cases hexplicit.2 with
        | inl hversion' => exact absurd hversion' hstale
        | inr hstop =>
            have hstop' : client.stopped = true := hstop
            simp [hrunning] at hstop'
  rw [hkept] at htimer
  obtain ⟨own, status, hstage⟩ := h.retried htimer before hold hnow
  exact ⟨own, status, hfailed own status hstage⟩

theorem Connected.openThrows (h : client.Connected) (hcall : call ∈ client.calls)
    {socket : SocketId} {expected : Status} {awaiting : Awaiting}
    (hstage : call.stage = .opening socket expected awaiting) :
    (client.openThrows call socket).Connected := by
  have hready := h.sockets.not_ready h.course.toOrderly hcall hstage
  have hsame : (client.openThrows call socket).course =
      (client.course.endCall call.id).callerThrows call.caller := by
    rw [openThrows_course, if_neg hready]
    rfl
  have hkey := key_mem hcall
  have hcourse : (client.openThrows call socket).course.Steady := by
    rw [hsame]
    by_cases hversion : call.version = client.connectionVersion
    · exact h.course.throws_current hkey hversion
    · exact (h.course.ends_stale hkey hversion).2
  obtain ⟨next, heq, hsockets, hcalls, hloop, hconnection, hstopped⟩ :=
    h.sockets.throws_before h.course.toOrderly hcall hstage
  rw [heq] at hcourse ⊢
  refine ⟨hcourse, hsockets.callerThrows call.caller, ?_⟩
  apply h.retried_throws hcall _ hloop hconnection
  intro other hother
  rw [hcalls] at hother
  obtain ⟨before, hbefore, rfl⟩ := mem_quit hother
  obtain ⟨hold, hid⟩ := mem_endCall.mp hbefore
  refine ⟨before, hold, hid, rfl, ?_⟩
  intro own status hfailed
  simp [quit, hfailed, abandoned]

/-- The call does not use a socket. -/
def Idle (call : Call) : Prop :=
  ∀ socket expected awaiting, call.stage ≠ .opening socket expected awaiting

theorem Idle.fits (h : Idle call) : client.Fits call := by
  constructor <;> intros <;> first
    | exact h _ _ _
    | exact absurd ‹_› (h _ _ _)

/-- While the current socket is up, only its own call uses a socket. -/
theorem Sockets.others_idle (h : client.Sockets) (hcourse : client.course.Orderly)
    (hcall : call ∈ client.calls) (hversion : call.version = client.connectionVersion)
    {socket : SocketId} (hsocket : client.socket = some socket) (hup : client.Up socket)
    {other : Call} (hother : other ∈ client.calls) (hid : other.id ≠ call.id) : Idle other := by
  intro own expected awaiting hstage
  have hstale : other.version ≠ client.connectionVersion := by
    intro hnow
    exact hid (congrArg Call.id (eq_of_current hcourse hother hcall hnow hversion))
  exact (h.fits other hother).overtaken hstage hstale socket hsocket hup

/-- The sockets are in order when one call exchanges messages on the current socket. -/
theorem Sockets.of_single {holder : Call} {socket : SocketId} {expected : Status}
    {awaiting : Awaiting} (hsocket : client.socket = some socket)
    (hstopped : client.stopped = false) (hready : client.readySocket = none)
    (hlistening : client.listening socket = true) (hholder : holder ∈ client.calls)
    (hversion : holder.version = client.connectionVersion)
    (hstage : holder.stage = .opening socket expected awaiting)
    (hothers : ∀ other ∈ client.calls, other = holder ∨ Idle other)
    (hfits : client.Fits holder) (hpending : ∀ request ∈ client.pending, request.socket = socket)
    (hwelcome : ∀ welcome, client.pendingWelcome = some welcome → welcome.socket = socket)
    (howner : ∀ generation, client.openers[socket]? = some (.run generation) →
      generation = client.connectionVersion)
    (hlisten : ∀ own, client.listening own = true → client.readyState own ≠ .connecting) :
    client.Sockets where
  fits := by
    intro other hother
    cases hothers other hother with
    | inl hsame =>
        rw [hsame]
        exact hfits
    | inr hidle => exact hidle.fits
  apart := by
    intro first hfirst second hsecond own _ _ _ _ hstage' hstage''
    cases hothers first hfirst with
    | inr hidle => exact absurd hstage' (hidle _ _ _)
    | inl hsame =>
        cases hothers second hsecond with
        | inr hidle => exact absurd hstage'' (hidle _ _ _)
        | inl hsame' => rw [hsame, hsame']
  made := by
    intro own hown
    rw [hsocket, Option.some.injEq] at hown
    rw [← hown]
    exact lt_of_listening hlistening
  stopped := by
    intro hstop
    simp [hstopped] at hstop
  ready := by
    intro own hown
    simp [hready] at hown
  held := by
    intro own hown
    rw [hsocket, Option.some.injEq] at hown
    rw [← hown]
    exact Or.inr ⟨holder, hholder, hversion, expected, awaiting, hstage⟩
  pending := by
    intro request hrequest
    rw [hpending request hrequest]
    exact ⟨hsocket, hlistening⟩
  welcome := by
    intro welcome hsome
    rw [hwelcome welcome hsome]
    exact ⟨hsocket, hlistening⟩
  owner := by
    intro own hown generation hopener
    rw [hsocket, Option.some.injEq] at hown
    rw [← hown] at hopener
    exact howner generation hopener
  listen := hlisten

/-- The owner of the current socket after a handler which leaves the openers alone. -/
theorem Sockets.owner_of_socket (h : client.Sockets) {socket : SocketId}
    (hsocket : client.socket = some socket) : ∀ generation,
      client.openers[socket]? = some (.run generation) → generation = client.connectionVersion :=
  fun generation => h.owner socket hsocket generation

theorem mem_setStage {id : ℕ} {stage : Stage} (h : call ∈ (client.setStage id stage).calls) :
    ∃ before ∈ client.calls,
      call = if before.id = id then { before with stage := stage } else before := by
  simp only [setStage, List.mem_map] at h
  obtain ⟨before, hbefore, hsame⟩ := h
  exact ⟨before, hbefore, hsame.symm⟩

/-- A call of the current version which has not failed: no timer is set. -/
theorem Retried.no_timer (h : client.Retried) (hcall : call ∈ client.calls)
    (hversion : call.version = client.connectionVersion)
    (hworks : ∀ socket expected, call.stage ≠ .opening socket expected .failed) :
    client.reconnectLoop.timer = none := by
  by_contra htimer
  obtain ⟨socket, expected, hfailed⟩ := h htimer call hcall hversion
  exact hworks socket expected hfailed

theorem Retried.of_none (h : client.reconnectLoop.timer = none) : client.Retried :=
  fun htimer => absurd h htimer

theorem setStage_mem {id : ℕ} {stage : Stage} (hcall : call ∈ client.calls) (hid : call.id = id) :
    { call with stage := stage } ∈ (client.setStage id stage).calls := by
  simp only [setStage, List.mem_map]
  exact ⟨call, hcall, by rw [if_pos hid]⟩

/-- After the stage of the only call in use has changed, the other calls are idle still. -/
theorem setStage_others (hcourse : client.course.Orderly) {stage : Stage}
    (hcall : call ∈ client.calls)
    (hidle : ∀ other ∈ client.calls, other.id ≠ call.id → Idle other) :
    ∀ other ∈ (client.setStage call.id stage).calls,
      other = { call with stage := stage } ∨ Idle other := by
  intro other hother
  obtain ⟨before, hbefore, hsame⟩ := mem_setStage hother
  by_cases hid : before.id = call.id
  · left
    rw [hsame, if_pos hid, eq_of_id hcourse hbefore hcall hid]
  · right
    rw [hsame, if_neg hid]
    exact hidle before hbefore hid

theorem Connected.sayHello (h : client.Connected) (hcall : call ∈ client.calls)
    {socket : SocketId} {expected : Status}
    (hstage : call.stage = .opening socket expected .opened) :
    (client.sayHello call socket expected).Connected := by
  unfold SerialClient.sayHello
  split
  · exact h.openThrows hcall hstage
  · rename_i hlive
    simp only [not_or, not_not, Bool.not_eq_true] at hlive
    obtain ⟨hstopped, hversion, hsocket⟩ := hlive
    obtain ⟨_, hopened, hquiet⟩ := (h.sockets.fits call hcall).opened hstage hversion
    have hmade := (h.sockets.fits call hcall).made hstage
    have hwelcome : client.pendingWelcome = none := by
      cases hpending : client.pendingWelcome with
      | none => rfl
      | some welcome =>
          obtain ⟨hown, hlistening⟩ := h.sockets.welcome welcome hpending
          rw [hsocket, Option.some.injEq] at hown
          rw [← hown, hquiet] at hlistening
          simp at hlistening
    have hpending : client.pending = [] := by
      apply List.eq_nil_iff_forall_not_mem.mpr
      intro request hrequest
      obtain ⟨hown, hlistening⟩ := h.sockets.pending request hrequest
      rw [hsocket, Option.some.injEq] at hown
      rw [← hown, hquiet] at hlistening
      simp at hlistening
    have hready := ((h.sockets.current_of_opening h.course.toOrderly hcall hstage).1 hversion).1
    have hidle : ∀ other ∈ client.calls, other.id ≠ call.id → Idle other := fun other hother =>
      h.sockets.others_idle h.course.toOrderly hcall hversion hsocket (Or.inl hopened) hother
    have htimer := h.retried.no_timer hcall hversion (by simp [hstage])
    have hwaiting : ((client.setListening socket true).pendingWelcome.isSome) = false := by
      have hsame : (client.setListening socket true).pendingWelcome = client.pendingWelcome := rfl
      rw [hsame, hwelcome]
      rfl
    have hmade' : socket < (client.setListening socket true).sockets.length := by
      rw [length_setListening]
      exact hmade
    have hopened' : (client.setListening socket true).readyState socket = .opened := by
      rw [readyState_setListening]
      exact hopened
    dsimp only
    rw [if_neg (by rw [hwaiting]; simp), control, if_pos]
    · refine ⟨?_, ?_, Retried.of_none htimer⟩
      · rw [course_setStage]
        exact h.course.later
      · refine Sockets.of_single hsocket hstopped hready
          (listening_setListening_self hmade) (setStage_mem hcall rfl) hversion rfl
          (setStage_others h.course.toOrderly hcall hidle) ?_ ?_ ?_ ?_ ?_
        · constructor
          · intro own _ _ hown
            injection hown with hown
            rw [← hown]
            exact hmade'
          · intro _ _ _ _ hstale
            exact absurd hversion hstale
          · intro _ _ hown
            simp at hown
          · intro _ _ hown
            simp at hown
          · intro own _ _ hown _
            injection hown with hown
            rw [← hown]
            exact ⟨hsocket, hversion, listening_setListening_self hmade⟩
          · intro _ _ hello _ hown
            injection hown with _ _ hown
            injection hown with hown
            rw [← hown]
            simp [setStage, setListening]
          · intro own _ _ _ hown
            injection hown with hown
            rw [← hown]
            rfl
          · intro _ _ _ _ _ hown
            simp at hown
          · intro _ _ _ _ hown
            simp at hown
        · intro request hrequest
          have hnew : request ∈ client.pending ++ [⟨client.nextId, socket, false, []⟩] := hrequest
          rw [hpending, List.nil_append, List.mem_singleton] at hnew
          rw [hnew]
        · intro welcome hsome
          have hnew : some (⟨socket, expected.response.serverId, expected.response.daemonEpoch⟩ :
            PendingWelcome) = some welcome := hsome
          rw [← Option.some.inj hnew]
        · intro generation hopener
          have hold : client.openers[socket]? = some (.run generation) := by
            rw [← @openers_setListening client socket true]
            exact hopener
          exact h.sockets.owner socket hsocket generation hold
        · intro own hown
          have hlistening : (client.setListening socket true).listening own = true := hown
          have hstate : (client.setListening socket true).readyState own =
            client.readyState own := readyState_setListening
          intro hconnecting
          have hconnecting' : (client.setListening socket true).readyState own = .connecting :=
            hconnecting
          rw [hstate] at hconnecting'
          by_cases hsame : own = socket
          · rw [hsame, hopened] at hconnecting'
            simp at hconnecting'
          · rw [listening_setListening_ne hsame] at hlistening
            exact h.sockets.listen own hlistening hconnecting'
    · exact ⟨hsocket, hopened'⟩

/-- A call which exchanges messages is alone on the current socket. -/
theorem Connected.conversation (h : client.Connected) (hcall : call ∈ client.calls)
    {socket : SocketId} {expected : Status} {awaiting : Awaiting}
    (hstage : call.stage = .opening socket expected awaiting)
    (hconverses : awaiting.converses = true) :
    client.socket = some socket ∧ call.version = client.connectionVersion ∧
      client.listening socket = true ∧ client.stopped = false ∧ client.readySocket = none ∧
      client.reconnectLoop.timer = none ∧
      ∀ other ∈ client.calls, other.id ≠ call.id → Idle other := by
  obtain ⟨hsocket, hversion, hlistening⟩ :=
    (h.sockets.fits call hcall).conversing hstage hconverses
  refine ⟨hsocket, hversion, hlistening, ?_, ?_, ?_, ?_⟩
  · by_contra hstopped
    rw [Bool.not_eq_false] at hstopped
    have hnone := h.sockets.stopped hstopped
    simp [hsocket] at hnone
  · exact ((h.sockets.current_of_opening h.course.toOrderly hcall hstage).1 hversion).1
  · apply h.retried.no_timer hcall hversion
    intro own status hfailed
    rw [hstage] at hfailed
    injection hfailed with _ _ hfailed
    rw [hfailed] at hconverses
    simp [Awaiting.converses] at hconverses
  · intro other hother
    exact h.sockets.others_idle h.course.toOrderly hcall hversion hsocket (Or.inr hlistening)
      hother

/-- A call which has sent its Attach fits the state where that request is pending. -/
theorem fits_of_attach {socket : SocketId} {expected : Status} {actor : Actor}
    {request : RequestId} (hmade : socket < client.sockets.length)
    (hsocket : client.socket = some socket) (hversion : call.version = client.connectionVersion)
    (hlistening : client.listening socket = true)
    (hpending : request ∈ client.pending.map PendingRequest.requestId) :
    client.Fits { call with stage := .opening socket expected (.attach actor request) } := by
  constructor
  · intro own _ _ hown
    injection hown with hown
    rw [← hown]
    exact hmade
  · intro _ _ _ _ hstale
    exact absurd hversion hstale
  · intro _ _ hown
    simp at hown
  · intro _ _ hown
    simp at hown
  · intro own _ _ hown _
    injection hown with hown
    rw [← hown]
    exact ⟨hsocket, hversion, hlistening⟩
  · intro _ _ _ _ hown
    simp at hown
  · intro _ _ _ _ hown
    simp at hown
  · intro _ _ _ _ _ hown
    simp at hown
  · intro _ _ _ _ hown
    injection hown with _ _ hown
    injection hown with _ hown
    rw [← hown]
    exact hpending

theorem Connected.sendAttach (h : client.Connected) (hcall : call ∈ client.calls)
    {socket : SocketId} {expected : Status} {actor : Actor} {accepted : Reply}
    (hstage : call.stage = .opening socket expected (.greeted actor accepted)) :
    (client.sendAttach call socket expected actor accepted).Connected := by
  unfold SerialClient.sendAttach
  split
  · exact h.openThrows hcall hstage
  · split
    · exact h.openThrows hcall hstage
    · obtain ⟨hsocket, hversion, hlistening, hstopped, hready, htimer, hidle⟩ :=
        h.conversation hcall hstage rfl
      have hmade := (h.sockets.fits call hcall).made hstage
      have hpending : ∀ request ∈ client.pending, request.socket = socket := by
        intro request hrequest
        have hown := (h.sockets.pending request hrequest).1
        rw [hsocket, Option.some.injEq] at hown
        exact hown.symm
      have hwelcome : ∀ welcome, client.pendingWelcome = some welcome →
          welcome.socket = socket := by
        intro welcome hsome
        have hown := (h.sockets.welcome welcome hsome).1
        rw [hsocket, Option.some.injEq] at hown
        exact hown.symm
      have hfails : client.Fits { call with stage := .opening socket expected .failed } :=
        (h.sockets.fits call hcall).failed hstage rfl rfl
      rw [control]
      split
      · rename_i hnone
        refine ⟨?_, ?_, Retried.of_none htimer⟩
        · rw [course_setStage]
          exact h.course
        · exact Sockets.of_single hsocket hstopped hready hlistening (setStage_mem hcall rfl)
            hversion rfl (setStage_others h.course.toOrderly hcall hidle)
            (hfails.congr rfl rfl rfl rfl rfl) hpending hwelcome
            (h.sockets.owner_of_socket hsocket) h.sockets.listen
      · rename_i sent hsent
        split at hsent
        · cases hsent
          refine ⟨?_, ?_, Retried.of_none htimer⟩
          · rw [course_setStage]
            exact h.course.later
          · refine Sockets.of_single hsocket hstopped hready hlistening (setStage_mem hcall rfl)
              hversion rfl (setStage_others h.course.toOrderly hcall hidle)
              (fits_of_attach hmade hsocket hversion hlistening ?_) ?_ hwelcome
              (h.sockets.owner_of_socket hsocket) h.sockets.listen
            · simp [setStage]
            · intro request hrequest
              have hnew : request ∈ client.pending ++ [⟨client.nextId, socket, false, []⟩] :=
                hrequest
              rw [List.mem_append, List.mem_singleton] at hnew
              cases hnew with
              | inl hold => exact hpending request hold
              | inr hsame => rw [hsame]
        · simp at hsent

theorem Connected.becomeReady (h : client.Connected) (hcall : call ∈ client.calls)
    {socket : SocketId} {expected : Status} {actor : Actor} {result : Reply}
    (hstage : call.stage = .opening socket expected (.attached actor result)) :
    (client.becomeReady call socket expected actor result).Connected := by
  unfold SerialClient.becomeReady
  split
  · split
    · exact h.openThrows hcall hstage
    · split
      · exact h.openThrows hcall hstage
      · obtain ⟨hsocket, hversion, hlistening, hstopped, hready, htimer, hidle⟩ :=
          h.conversation hcall hstage rfl
        have hidle' : ∀ other ∈ (client.endCall call.id).calls, Idle other := by
          intro other hother
          obtain ⟨hold, hid⟩ := mem_endCall.mp hother
          exact hidle other hold hid
        refine ⟨?_, ?_, ?_⟩
        · rw [course_callerReturns]
          have hreturned := h.course.returns_current (key_mem hcall) hversion htimer
          have hcourse : ({ client.endCall call.id with
              actor := some actor, readySocket := some socket } : SerialClient).course =
              { client.course.endCall call.key.id with ready := true } := by
            have hended : (client.endCall call.id).course = client.course.endCall call.key.id :=
              course_endCall call.id client
            rw [← hended]
            rfl
          rw [hcourse]
          exact hreturned
        · apply Sockets.callerReturns
          constructor
          · intro other hother
            exact (hidle' other hother).fits
          · intro other hother _ _ _ _ _ _ _ hopening
            exact absurd hopening (hidle' other hother _ _ _)
          · exact h.sockets.made
          · exact h.sockets.stopped
          · intro own hown
            have hsame : socket = own := Option.some.inj hown
            rw [← hsame]
            exact ⟨hsocket, hlistening, by simp⟩
          · intro own hown
            left
            exact hsocket.symm.trans hown
          · exact h.sockets.pending
          · exact h.sockets.welcome
          · exact h.sockets.owner
          · exact h.sockets.listen
        · obtain ⟨loop, heq, hloop⟩ := callerReturns_eq call.caller
            { client.endCall call.id with actor := some actor, readySocket := some socket }
          rw [heq]
          exact Retried.of_none (hloop.trans htimer)
  · exact h.openThrows hcall hstage

theorem Connected.resume (h : client.Connected) (hcall : call ∈ client.calls) :
    (client.resume call).Connected := by
  unfold SerialClient.resume
  split
  · rename_i hstage
    exact h.sayHello hcall hstage
  · rename_i hstage
    exact h.sendAttach hcall hstage
  · rename_i hstage
    exact h.becomeReady hcall hstage
  · rename_i hstage
    exact h.openThrows hcall hstage
  · exact h

/-! ## Handlers which change the stages of the calls -/

/-- The calls keep their numbers, versions and sockets. -/
structure Restages (change : Call → Call) : Prop where
  id : ∀ call, (change call).id = call.id
  version : ∀ call, (change call).version = call.version
  before : ∀ {call socket expected awaiting},
    (change call).stage = .opening socket expected awaiting →
      ∃ before, call.stage = .opening socket expected before
  after : ∀ {call socket expected awaiting}, call.stage = .opening socket expected awaiting →
    ∃ after, (change call).stage = .opening socket expected after
  failed : ∀ {call socket expected}, call.stage = .opening socket expected .failed →
    (change call).stage = .opening socket expected .failed

theorem Sockets.restage (h : client.Sockets) {change : Call → Call} (hchange : Restages change)
    {next : SerialClient} (hcalls : next.calls = client.calls.map change)
    (hsocket : next.socket = client.socket) (hready : next.readySocket = client.readySocket)
    (hstopped : next.stopped = client.stopped)
    (hversion : next.connectionVersion = client.connectionVersion)
    (hactor : next.actor = client.actor)
    (hlength : next.sockets.length = client.sockets.length)
    (hopeners : next.openers = client.openers)
    (hlistening : ∀ own, next.listening own = client.listening own)
    (hlisten : ∀ own, client.listening own = true → next.readyState own ≠ .connecting)
    (hpending : ∀ request ∈ next.pending, request ∈ client.pending)
    (hwelcome : ∀ welcome, next.pendingWelcome = some welcome →
      client.pendingWelcome = some welcome)
    (hfits : ∀ call ∈ client.calls, next.Fits (change call)) : next.Sockets where
  fits := by
    intro call hcall
    rw [hcalls] at hcall
    obtain ⟨before, hbefore, rfl⟩ := List.mem_map.mp hcall
    exact hfits before hbefore
  apart := by
    intro first hfirst second hsecond socket _ _ _ _ hstage hstage'
    rw [hcalls] at hfirst hsecond
    obtain ⟨before, hbefore, rfl⟩ := List.mem_map.mp hfirst
    obtain ⟨before', hbefore', rfl⟩ := List.mem_map.mp hsecond
    obtain ⟨_, hopening⟩ := hchange.before hstage
    obtain ⟨_, hopening'⟩ := hchange.before hstage'
    rw [hchange.id, hchange.id]
    exact h.apart before hbefore before' hbefore' hopening hopening'
  made := by
    rw [hsocket, hlength]
    exact h.made
  stopped := by
    rw [hstopped, hsocket]
    exact h.stopped
  ready := by
    intro socket
    rw [hready, hsocket, hlistening, hactor]
    exact h.ready socket
  held := by
    intro socket hown
    rw [hsocket] at hown
    cases h.held socket hown with
    | inl hreadySocket =>
        left
        rw [hready]
        exact hreadySocket
    | inr hholder =>
        obtain ⟨holder, hholder, hnow, expected, awaiting, hstage⟩ := hholder
        obtain ⟨after, hafter⟩ := hchange.after hstage
        refine Or.inr ⟨change holder, ?_, ?_, expected, after, hafter⟩
        · rw [hcalls]
          exact List.mem_map_of_mem hholder
        · rw [hchange.version, hversion]
          exact hnow
  pending := by
    intro request hrequest
    rw [hsocket, hlistening]
    exact h.pending request (hpending request hrequest)
  welcome := by
    intro welcome hsome
    rw [hsocket, hlistening]
    exact h.welcome welcome (hwelcome welcome hsome)
  owner := by
    rw [hsocket, hopeners, hversion]
    exact h.owner
  listen := by
    intro own
    rw [hlistening]
    exact hlisten own

theorem Retried.restage (h : client.Retried) {change : Call → Call} (hchange : Restages change)
    {next : SerialClient} (hcalls : next.calls = client.calls.map change)
    (hversion : next.connectionVersion = client.connectionVersion)
    (htimer : next.reconnectLoop.timer = client.reconnectLoop.timer) : next.Retried := by
  intro hset call hcall hnow
  rw [hcalls] at hcall
  obtain ⟨before, hbefore, rfl⟩ := List.mem_map.mp hcall
  rw [hchange.version, hversion] at hnow
  rw [htimer] at hset
  obtain ⟨socket, expected, hfailed⟩ := h hset before hbefore hnow
  exact ⟨socket, expected, hchange.failed hfailed⟩

theorem restages_fail (waits : Stage → Bool) :
    Restages fun call =>
      { call with stage := if waits call.stage then call.stage.fail else call.stage } := by
  constructor
  · intro call
    rfl
  · intro call
    rfl
  · intro call socket expected awaiting hstage
    dsimp only at hstage
    split at hstage
    · cases hold : call.stage with
      | configuring | loadingHistory => simp [hold, Stage.fail] at hstage
      | opening own status before =>
          simp only [hold, Stage.fail, Stage.opening.injEq] at hstage
          exact ⟨before, by rw [hstage.1, hstage.2.1]⟩
    · exact ⟨awaiting, hstage⟩
  · intro call socket expected awaiting hstage
    dsimp only
    split
    · exact ⟨.failed, by rw [hstage, Stage.fail]⟩
    · exact ⟨awaiting, hstage⟩
  · intro call socket expected hstage
    dsimp only
    split
    · rw [hstage, Stage.fail]
    · exact hstage

/-- A call fits whether its promise is rejected or not. -/
theorem Fits.fail (h : client.Fits call) (waits : Stage → Bool) :
    client.Fits
      { call with stage := if waits call.stage then call.stage.fail else call.stage } := by
  split
  · cases hstage : call.stage with
    | configuring | loadingHistory =>
        apply Idle.fits
        intro socket expected awaiting hopening
        simp [Stage.fail] at hopening
    | opening socket expected awaiting => exact h.failed hstage rfl rfl
  · exact h

theorem Connected.failCalls (h : client.Connected) (waits : Stage → Bool) :
    (client.failCalls waits).Connected where
  course := by
    rw [course_failCalls]
    exact h.course
  sockets := by
    refine h.sockets.restage (restages_fail waits) rfl rfl rfl rfl rfl rfl rfl rfl
      (fun _ => rfl) h.sockets.listen (fun _ h => h) (fun _ h => h) ?_
    intro call hcall
    exact ((h.sockets.fits call hcall).fail waits).congr rfl rfl rfl rfl rfl
  retried := h.retried.restage (restages_fail waits) rfl rfl rfl

theorem Connected.timeout (h : client.Connected) {id : ℕ} (hcall : call ∈ client.calls)
    (hid : call.id = id) {socket : SocketId} {expected : Status} {awaiting : Awaiting}
    (hstage : call.stage = .opening socket expected awaiting) :
    (client.setStage id (.opening socket expected .failed)).Connected := by
  have hother : ∀ other ∈ client.calls, other.id = id → other = call := by
    intro other hother hsame
    exact eq_of_id h.course.toOrderly hother hcall (hsame.trans hid.symm)
  have hequal : client.setStage id (.opening socket expected .failed) =
      { client with calls := client.calls.map fun other =>
        { other with stage := if other.id = id then other.stage.fail else other.stage } } := by
    simp only [setStage, SerialClient.mk.injEq, true_and, and_true]
    apply List.map_congr_left
    intro other hmem
    by_cases hsame : other.id = id
    · rw [if_pos hsame, if_pos hsame, hother other hmem hsame, hstage]
      rfl
    · rw [if_neg hsame, if_neg hsame]
  have hrestages : Restages fun other : Call =>
      { other with stage := if other.id = id then other.stage.fail else other.stage } := by
    constructor
    · intro other
      rfl
    · intro other
      rfl
    · intro other own status state hopening
      by_cases hsame : other.id = id
      · exact (restages_fail fun _ => true).before (by simpa [hsame] using hopening)
      · exact ⟨state, by simpa [hsame] using hopening⟩
    · intro other own status state hopening
      by_cases hsame : other.id = id
      · exact ⟨.failed, by simp [hsame, hopening, Stage.fail]⟩
      · exact ⟨state, by simpa [hsame] using hopening⟩
    · intro other own status hopening
      by_cases hsame : other.id = id
      · simp [hsame, hopening, Stage.fail]
      · simpa [hsame] using hopening
  refine ⟨?_, ?_, ?_⟩
  · rw [course_setStage]
    exact h.course
  · rw [hequal]
    refine h.sockets.restage hrestages rfl rfl rfl rfl rfl rfl rfl rfl
      (fun _ => rfl) h.sockets.listen (fun _ h => h) (fun _ h => h) ?_
    intro other hmem
    have hfits := h.sockets.fits other hmem
    by_cases hsame : other.id = id
    · have hfailed := hfits.fail fun _ => true
      simp only [hsame, if_true] at hfailed ⊢
      exact hfailed.congr rfl rfl rfl rfl rfl
    · simp only [hsame, if_false]
      exact hfits.congr rfl rfl rfl rfl rfl
  · rw [hequal]
    exact h.retried.restage hrestages rfl rfl rfl

/-! ## Answers -/

theorem answered_opening {requestId : RequestId} {reply : Reply} {stage : Stage}
    {socket : SocketId} {expected : Status} {awaiting : Awaiting}
    (h : Stage.answered requestId reply stage = .opening socket expected awaiting) :
    ∃ before, stage = .opening socket expected before ∧
      (awaiting = before ∧ awaitsRequest requestId stage = false ∨
        awaitsRequest requestId stage = true ∧ before.converses = true ∧
          ((∃ hello, before = .welcome hello none none ∧
              awaiting = .welcome hello none (some reply)) ∨
            (∃ hello actor, before = .welcome hello (some actor) none ∧
              awaiting = .greeted actor reply) ∨
            ∃ actor attach, before = .attach actor attach ∧
              awaiting = .attached actor reply)) := by
  cases stage with
  | configuring => simp [Stage.answered] at h
  | loadingHistory => simp [Stage.answered] at h
  | opening own status before =>
      cases before with
      | handshake | opened | failed => 
          simp only [Stage.answered, Stage.opening.injEq] at h
          obtain ⟨rfl, rfl, rfl⟩ := h
          exact ⟨_, rfl, Or.inl ⟨rfl, rfl⟩⟩
      | greeted actor accepted =>
          simp only [Stage.answered, Stage.opening.injEq] at h
          obtain ⟨rfl, rfl, rfl⟩ := h
          exact ⟨_, rfl, Or.inl ⟨rfl, rfl⟩⟩
      | attached actor result =>
          simp only [Stage.answered, Stage.opening.injEq] at h
          obtain ⟨rfl, rfl, rfl⟩ := h
          exact ⟨_, rfl, Or.inl ⟨rfl, rfl⟩⟩
      | attach actor attach =>
          simp only [Stage.answered] at h
          by_cases hown : attach = requestId
          · rw [if_pos hown] at h
            injection h with hsocket hstatus hawaiting
            subst hsocket hstatus
            refine ⟨_, rfl, Or.inr ⟨by simp [awaitsRequest, hown], rfl, ?_⟩⟩
            exact Or.inr (Or.inr ⟨actor, attach, rfl, hawaiting.symm⟩)
          · rw [if_neg hown] at h
            injection h with hsocket hstatus hawaiting
            subst hsocket hstatus
            exact ⟨_, rfl, Or.inl ⟨hawaiting.symm, by simp [awaitsRequest, hown]⟩⟩
      | welcome hello welcomed accepted =>
          cases accepted with
          | some accepted =>
              simp only [Stage.answered, Stage.opening.injEq] at h
              obtain ⟨rfl, rfl, rfl⟩ := h
              exact ⟨_, rfl, Or.inl ⟨rfl, rfl⟩⟩
          | none =>
              simp only [Stage.answered] at h
              by_cases hown : hello = requestId
              · rw [if_pos hown] at h
                injection h with hsocket hstatus hawaiting
                subst hsocket hstatus
                refine ⟨_, rfl, Or.inr ⟨by simp [awaitsRequest, hown], rfl, ?_⟩⟩
                cases welcomed with
                | none => exact Or.inl ⟨hello, rfl, hawaiting.symm⟩
                | some actor => exact Or.inr (Or.inl ⟨hello, actor, rfl, hawaiting.symm⟩)
              · rw [if_neg hown] at h
                injection h with hsocket hstatus hawaiting
                subst hsocket hstatus
                exact ⟨_, rfl, Or.inl ⟨hawaiting.symm, by simp [awaitsRequest, hown]⟩⟩

theorem restages_answered (requestId : RequestId) (reply : Reply) :
    Restages fun call => { call with stage := call.stage.answered requestId reply } := by
  constructor
  · intro call
    rfl
  · intro call
    rfl
  · intro call socket expected awaiting hstage
    obtain ⟨before, hbefore, _⟩ := answered_opening hstage
    exact ⟨before, hbefore⟩
  · intro call socket expected awaiting hstage
    dsimp only
    rw [hstage]
    cases awaiting with
    | handshake | opened | failed => exact ⟨_, rfl⟩
    | greeted actor accepted => exact ⟨_, rfl⟩
    | attached actor result => exact ⟨_, rfl⟩
    | attach actor attach =>
        simp only [Stage.answered]
        split <;> exact ⟨_, rfl⟩
    | welcome hello welcomed accepted =>
        cases accepted with
        | some accepted => exact ⟨_, rfl⟩
        | none =>
            simp only [Stage.answered]
            split <;> exact ⟨_, rfl⟩
  · intro call socket expected hstage
    dsimp only
    rw [hstage]
    rfl

theorem mem_filter_pending {requestId own : RequestId}
    (h : own ∈ client.pending.map PendingRequest.requestId) (hne : own ≠ requestId) :
    own ∈ (client.pending.filter (·.requestId ≠ requestId)).map PendingRequest.requestId := by
  obtain ⟨request, hrequest, hid⟩ := List.mem_map.mp h
  refine List.mem_map.mpr ⟨request, List.mem_filter.mpr ⟨hrequest, ?_⟩, hid⟩
  rw [hid]
  simpa using hne

theorem Fits.answered (h : client.Fits call) (requestId : RequestId) (reply : Reply) :
    { client with pending := client.pending.filter (·.requestId ≠ requestId) }.Fits
      { call with stage := call.stage.answered requestId reply } := by
  constructor
  · intro socket expected awaiting hstage
    obtain ⟨before, hbefore, _⟩ := answered_opening hstage
    exact h.made hbefore
  · intro socket expected awaiting hstage
    obtain ⟨before, hbefore, _⟩ := answered_opening hstage
    exact h.overtaken hbefore
  · intro socket expected hstage
    obtain ⟨before, hbefore, hsame | ⟨_, _, hother⟩⟩ := answered_opening hstage
    · rw [← hsame.1] at hbefore
      exact h.handshake hbefore
    · simp at hother
  · intro socket expected hstage
    obtain ⟨before, hbefore, hsame | ⟨_, _, hother⟩⟩ := answered_opening hstage
    · rw [← hsame.1] at hbefore
      exact h.opened hbefore
    · simp at hother
  · intro socket expected awaiting hstage hconverses
    obtain ⟨before, hbefore, hsame | ⟨_, hbeforeConverses, _⟩⟩ := answered_opening hstage
    · rw [hsame.1] at hconverses
      exact h.conversing hbefore hconverses
    · exact h.conversing hbefore hbeforeConverses
  · intro socket expected hello welcomed hstage
    obtain ⟨before, hbefore, ⟨hsame, hother⟩ | ⟨_, _, hother⟩⟩ := answered_opening hstage
    · rw [← hsame] at hbefore
      rw [hbefore] at hother
      exact mem_filter_pending (h.hello hbefore) (by simpa [awaitsRequest] using hother)
    · simp at hother
  · intro socket expected hello accepted hstage
    obtain ⟨before, hbefore, ⟨hsame, _⟩ | ⟨_, _, hother⟩⟩ := answered_opening hstage
    · rw [← hsame] at hbefore
      exact h.welcome hbefore
    · obtain ⟨_, hwelcome, _⟩ | ⟨_, _, _, hwelcome⟩ | ⟨_, _, _, hwelcome⟩ := hother
      · rw [hwelcome] at hbefore
        exact h.welcome hbefore
      · simp at hwelcome
      · simp at hwelcome
  · intro socket expected hello actor accepted hstage
    obtain ⟨before, hbefore, ⟨hsame, _⟩ | ⟨_, _, hother⟩⟩ := answered_opening hstage
    · rw [← hsame] at hbefore
      exact h.greeting hbefore
    · simp at hother
  · intro socket expected actor request hstage
    obtain ⟨before, hbefore, ⟨hsame, hother⟩ | ⟨_, _, hother⟩⟩ := answered_opening hstage
    · rw [← hsame] at hbefore
      rw [hbefore] at hother
      exact mem_filter_pending (h.attach hbefore) (by simpa [awaitsRequest] using hother)
    · simp at hother

/-- A call which waits for no answer fits whatever is pending. -/
theorem Fits.congr_settled (h : client.Fits call) {next : SerialClient}
    (hsettled : ∀ {socket expected awaiting}, call.stage = .opening socket expected awaiting →
      awaiting.converses = true → awaiting.isSettled = true)
    (hsocket : next.socket = client.socket)
    (hversion : next.connectionVersion = client.connectionVersion)
    (hsockets : next.sockets = client.sockets) : next.Fits call := by
  have hsame : ({ next with pending := client.pending, pendingWelcome := client.pendingWelcome } :
      SerialClient).Fits call := h.congr hsocket hversion hsockets rfl rfl
  constructor
  · exact hsame.made
  · exact hsame.overtaken
  · exact hsame.handshake
  · exact hsame.opened
  · exact hsame.conversing
  · intro socket expected hello welcomed hstage
    have hfalse := hsettled hstage rfl
    simp [Awaiting.isSettled] at hfalse
  · intro socket expected hello accepted hstage
    have hfalse := hsettled hstage rfl
    simp [Awaiting.isSettled] at hfalse
  · exact hsame.greeting
  · intro socket expected actor request hstage
    have hfalse := hsettled hstage rfl
    simp [Awaiting.isSettled] at hfalse

theorem Fits.rejected (h : client.Fits call) (requestId : RequestId) :
    { client with pending := client.pending.filter (·.requestId ≠ requestId) }.Fits
      { call with
        stage := if awaitsRequest requestId call.stage then call.stage.fail else call.stage } := by
  have hfail := h.fail (awaitsRequest requestId)
  by_cases hawaits : awaitsRequest requestId call.stage = true
  · rw [if_pos hawaits] at hfail ⊢
    refine hfail.congr_settled ?_ rfl rfl rfl
    intro socket expected awaiting hstage hconverses
    obtain ⟨_, hopening⟩ := @Restages.before _ (restages_fail fun _ => true) call _ _ _ hstage
    rw [hopening] at hstage
    injection hstage with _ _ hstage
    rw [← hstage] at hconverses
    simp [Awaiting.converses] at hconverses
  · rw [if_neg hawaits]
    constructor
    · exact h.made
    · exact h.overtaken
    · exact h.handshake
    · exact h.opened
    · exact h.conversing
    · intro socket expected hello welcomed hstage
      rw [hstage] at hawaits
      exact mem_filter_pending (h.hello hstage) (by simpa [awaitsRequest] using hawaits)
    · exact h.welcome
    · exact h.greeting
    · intro socket expected actor request hstage
      rw [hstage] at hawaits
      exact mem_filter_pending (h.attach hstage) (by simpa [awaitsRequest] using hawaits)

theorem Connected.settleRequest (h : client.Connected) (request : PendingRequest)
    (outcome : Outcome) : (client.settleRequest request outcome).Connected := by
  have hcourse : (client.settleRequest request outcome).course.Steady := by
    rw [course_settleRequest]
    exact h.course
  have hpending : ∀ own ∈ client.pending.filter (·.requestId ≠ request.requestId),
      own ∈ client.pending := fun own hown => (List.mem_filter.mp hown).1
  cases outcome with
  | rejected =>
      refine ⟨hcourse, ?_, h.retried.restage (restages_fail _) rfl rfl rfl⟩
      refine h.sockets.restage (restages_fail _) rfl rfl rfl rfl rfl rfl rfl rfl
        (fun _ => rfl) h.sockets.listen hpending (fun _ hsome => hsome) ?_
      intro call hcall
      exact ((h.sockets.fits call hcall).rejected request.requestId).congr rfl rfl rfl rfl rfl
  | uncertain =>
      refine ⟨hcourse, ?_, h.retried.restage (restages_fail _) rfl rfl rfl⟩
      refine h.sockets.restage (restages_fail _) rfl rfl rfl rfl rfl rfl rfl rfl
        (fun _ => rfl) h.sockets.listen hpending (fun _ hsome => hsome) ?_
      intro call hcall
      exact ((h.sockets.fits call hcall).rejected request.requestId).congr rfl rfl rfl rfl rfl
  | resolved reply =>
      have hrestages := restages_answered request.requestId reply
      refine ⟨hcourse, ?_, h.retried.restage hrestages rfl rfl rfl⟩
      refine h.sockets.restage hrestages rfl rfl rfl rfl rfl rfl rfl rfl
        (fun _ => rfl) h.sockets.listen hpending (fun _ hsome => hsome) ?_
      intro call hcall
      exact ((h.sockets.fits call hcall).answered request.requestId reply).congr
        rfl rfl rfl rfl rfl

/-! ## The Welcome -/

theorem welcomed_opening {own : SocketId} {actor : Actor} {stage : Stage}
    {socket : SocketId} {expected : Status} {awaiting : Awaiting}
    (h : Stage.welcomed own actor stage = .opening socket expected awaiting) :
    ∃ before, stage = .opening socket expected before ∧
      (awaiting = before ∧ awaitsWelcome own stage = false ∨
        awaitsWelcome own stage = true ∧
          ((∃ hello, before = .welcome hello none none ∧
              awaiting = .welcome hello (some actor) none) ∨
            ∃ hello reply, before = .welcome hello none (some reply) ∧
              awaiting = .greeted actor reply)) := by
  cases stage with
  | configuring => simp [Stage.welcomed] at h
  | loadingHistory => simp [Stage.welcomed] at h
  | opening mine status before =>
      cases before with
      | handshake | opened | failed =>
          simp only [Stage.welcomed, Stage.opening.injEq] at h
          obtain ⟨rfl, rfl, rfl⟩ := h
          exact ⟨_, rfl, Or.inl ⟨rfl, rfl⟩⟩
      | greeted other accepted =>
          simp only [Stage.welcomed, Stage.opening.injEq] at h
          obtain ⟨rfl, rfl, rfl⟩ := h
          exact ⟨_, rfl, Or.inl ⟨rfl, rfl⟩⟩
      | attached other result =>
          simp only [Stage.welcomed, Stage.opening.injEq] at h
          obtain ⟨rfl, rfl, rfl⟩ := h
          exact ⟨_, rfl, Or.inl ⟨rfl, rfl⟩⟩
      | attach other attach =>
          simp only [Stage.welcomed, Stage.opening.injEq] at h
          obtain ⟨rfl, rfl, rfl⟩ := h
          exact ⟨_, rfl, Or.inl ⟨rfl, rfl⟩⟩
      | welcome hello welcomed accepted =>
          cases welcomed with
          | some other =>
              simp only [Stage.welcomed, Stage.opening.injEq] at h
              obtain ⟨rfl, rfl, rfl⟩ := h
              exact ⟨_, rfl, Or.inl ⟨rfl, rfl⟩⟩
          | none =>
              simp only [Stage.welcomed] at h
              by_cases hown : mine = own
              · rw [if_pos hown] at h
                injection h with hsocket hstatus hawaiting
                subst hsocket hstatus
                refine ⟨_, rfl, Or.inr ⟨by simp [awaitsWelcome, hown], ?_⟩⟩
                cases accepted with
                | none => exact Or.inl ⟨hello, rfl, hawaiting.symm⟩
                | some reply => exact Or.inr ⟨hello, reply, rfl, hawaiting.symm⟩
              · rw [if_neg hown] at h
                injection h with hsocket hstatus hawaiting
                subst hsocket hstatus
                exact ⟨_, rfl, Or.inl ⟨hawaiting.symm, by simp [awaitsWelcome, hown]⟩⟩

theorem restages_welcomed (own : SocketId) (actor : Actor) :
    Restages fun call => { call with stage := call.stage.welcomed own actor } := by
  constructor
  · intro call
    rfl
  · intro call
    rfl
  · intro call socket expected awaiting hstage
    obtain ⟨before, hbefore, _⟩ := welcomed_opening hstage
    exact ⟨before, hbefore⟩
  · intro call socket expected awaiting hstage
    dsimp only
    rw [hstage]
    cases awaiting with
    | handshake | opened | failed => exact ⟨_, rfl⟩
    | greeted other accepted => exact ⟨_, rfl⟩
    | attached other result => exact ⟨_, rfl⟩
    | attach other attach => exact ⟨_, rfl⟩
    | welcome hello welcomed accepted =>
        cases welcomed with
        | some other => exact ⟨_, rfl⟩
        | none =>
            simp only [Stage.welcomed]
            split <;> exact ⟨_, rfl⟩
  · intro call socket expected hstage
    dsimp only
    rw [hstage]
    rfl

theorem Fits.welcomed (h : client.Fits call) {own : SocketId} (actor : Actor)
    (hown : ∀ welcome, client.pendingWelcome = some welcome → welcome.socket = own) :
    { client with pendingWelcome := none }.Fits
      { call with stage := call.stage.welcomed own actor } := by
  constructor
  · intro socket expected awaiting hstage
    obtain ⟨before, hbefore, _⟩ := welcomed_opening hstage
    exact h.made hbefore
  · intro socket expected awaiting hstage
    obtain ⟨before, hbefore, _⟩ := welcomed_opening hstage
    exact h.overtaken hbefore
  · intro socket expected hstage
    obtain ⟨before, hbefore, hsame | ⟨_, hother⟩⟩ := welcomed_opening hstage
    · rw [← hsame.1] at hbefore
      exact h.handshake hbefore
    · simp at hother
  · intro socket expected hstage
    obtain ⟨before, hbefore, hsame | ⟨_, hother⟩⟩ := welcomed_opening hstage
    · rw [← hsame.1] at hbefore
      exact h.opened hbefore
    · simp at hother
  · intro socket expected awaiting hstage hconverses
    obtain ⟨before, hbefore, hsame | ⟨_, hother⟩⟩ := welcomed_opening hstage
    · rw [hsame.1] at hconverses
      exact h.conversing hbefore hconverses
    · apply h.conversing hbefore
      obtain ⟨_, hwelcome, _⟩ | ⟨_, _, hwelcome, _⟩ := hother
      · rw [hwelcome]
        rfl
      · rw [hwelcome]
        rfl
  · intro socket expected hello welcomed hstage
    obtain ⟨before, hbefore, ⟨hsame, _⟩ | ⟨_, hother⟩⟩ := welcomed_opening hstage
    · rw [← hsame] at hbefore
      exact h.hello hbefore
    · obtain ⟨_, hwelcome, hafter⟩ | ⟨_, _, _, hafter⟩ := hother
      · rw [hwelcome] at hbefore
        injection hafter with hsame
        rw [hsame]
        exact h.hello hbefore
      · simp at hafter
  · intro socket expected hello accepted hstage
    obtain ⟨before, hbefore, ⟨hsame, hother⟩ | ⟨_, hother⟩⟩ := welcomed_opening hstage
    · rw [← hsame] at hbefore
      rw [hbefore] at hother
      have hpending := h.welcome hbefore
      obtain ⟨welcome, hwelcome, hsocket⟩ := Option.map_eq_some_iff.mp hpending
      simp [awaitsWelcome, ← hown welcome hwelcome, hsocket] at hother
    · simp at hother
  · intro socket expected hello other accepted hstage
    obtain ⟨before, hbefore, ⟨hsame, _⟩ | ⟨_, hother⟩⟩ := welcomed_opening hstage
    · rw [← hsame] at hbefore
      exact h.greeting hbefore
    · simp at hother
  · intro socket expected other request hstage
    obtain ⟨before, hbefore, ⟨hsame, _⟩ | ⟨_, hother⟩⟩ := welcomed_opening hstage
    · rw [← hsame] at hbefore
      exact h.attach hbefore
    · simp at hother

theorem Connected.resolveWelcome (h : client.Connected) {own : SocketId} (actor : Actor)
    (hown : client.socket = some own) : (client.resolveWelcome own actor).Connected := by
  have hrestages := restages_welcomed own actor
  refine ⟨?_, ?_, h.retried.restage hrestages rfl rfl rfl⟩
  · rw [course_resolveWelcome]
    exact h.course
  · refine h.sockets.restage hrestages rfl rfl rfl rfl rfl rfl rfl rfl (fun _ => rfl)
      h.sockets.listen (fun _ hmem => hmem) (fun _ hnone => ?_) ?_
    · simp [SerialClient.resolveWelcome] at hnone
    · intro call hcall
      refine ((h.sockets.fits call hcall).welcomed actor ?_).congr rfl rfl rfl rfl rfl
      intro welcome hwelcome
      have hsocket := (h.sockets.welcome welcome hwelcome).1
      rw [hown, Option.some.injEq] at hsocket
      exact hsocket.symm

end SerialClient

end SerialPlatform.Desktop
