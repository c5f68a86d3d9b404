import Mathlib.Data.String.Basic
import SerialPlatform.OrderedMap
import SerialPlatform.Protocol

/-!
# The Agent's session

The Session of an Agent owns Runs on several ports over one connection.  Every request goes
through one call with a timeout, and the fallback of a call is to disconnect, which forgets
every Run.  Leases of the owned Runs are renewed together; a Run which was idle for too long
is released instead.
-/

namespace SerialPlatform.Agent

/-- The times are nanoseconds. -/
def second : ℕ := 1000000000
def leaseTtlMs : ℕ := 60000
def renewInterval : ℕ := 20 * second
def defaultRpcTimeout : ℕ := 5 * second

structure OwnedRun where
  id : Uuid
  token : Uuid
  handle : String
  activeUses : ℕ
  idleSince : ℕ
  deriving DecidableEq

def OwnedRun.newWithHandle (id token : Uuid) (handle : String) (now : ℕ) : OwnedRun :=
  ⟨id, token, handle, 0, now⟩

def OwnedRun.idleExpired (run : OwnedRun) (now : ℕ) (runIdleTtl : Option ℕ) : Bool :=
  run.activeUses = 0 && runIdleTtl.any fun ttl => ttl ≤ now - run.idleSince

/-- What the Session keeps as long as it has a socket: `disconnect` and `connect` clear the
maps whenever there is none. -/
structure Connection where
  actor : Actor
  leases : OrderedMap String ControlLease
  ownedRuns : OrderedMap String OwnedRun
  deriving DecidableEq

structure Session where
  connection : Option Connection
  runIdleTtl : Option ℕ
  deriving DecidableEq

namespace Session

def lease (s : Session) (port : String) : Option ControlLease :=
  s.connection.bind fun connection => connection.leases.lookup port

def ownedRun (s : Session) (port : String) : Option OwnedRun :=
  s.connection.bind fun connection => connection.ownedRuns.lookup port

def disconnect (s : Session) : Session := { s with connection := none }

def insertLease (port : String) (lease : ControlLease) (s : Session) : Session :=
  { s with connection := s.connection.map fun connection =>
      { connection with leases := connection.leases.insert port lease } }

def insertRun (port : String) (run : OwnedRun) (s : Session) : Session :=
  { s with connection := s.connection.map fun connection =>
      { connection with ownedRuns := connection.ownedRuns.insert port run } }

/-- Removes the Run and the lease of a port. -/
def forget (port : String) (s : Session) : Session :=
  { s with connection := s.connection.map fun connection =>
      { connection with
        leases := connection.leases.erase port
        ownedRuns := connection.ownedRuns.erase port } }

@[simp] theorem runIdleTtl_disconnect (s : Session) : s.disconnect.runIdleTtl = s.runIdleTtl := rfl
@[simp] theorem runIdleTtl_insertLease (port : String) (lease : ControlLease) (s : Session) :
    (s.insertLease port lease).runIdleTtl = s.runIdleTtl := rfl
@[simp] theorem runIdleTtl_insertRun (port : String) (run : OwnedRun) (s : Session) :
    (s.insertRun port run).runIdleTtl = s.runIdleTtl := rfl
@[simp] theorem runIdleTtl_forget (port : String) (s : Session) :
    (s.forget port).runIdleTtl = s.runIdleTtl := rfl

@[simp] theorem connection_disconnect (s : Session) : s.disconnect.connection = none := rfl

@[simp] theorem ownedRun_insertLease (port other : String) (lease : ControlLease) (s : Session) :
    (s.insertLease port lease).ownedRun other = s.ownedRun other := by
  unfold ownedRun insertLease
  cases s.connection <;> rfl

@[simp] theorem lease_insertRun (port other : String) (run : OwnedRun) (s : Session) :
    (s.insertRun port run).lease other = s.lease other := by
  unfold lease insertRun
  cases s.connection <;> rfl

theorem lease_insertLease_of_ne {port other : String} (lease : ControlLease) (s : Session)
    (h : other ≠ port) : (s.insertLease port lease).lease other = s.lease other := by
  unfold Session.lease insertLease
  cases s.connection with
  | none => rfl
  | some connection => exact OrderedMap.lookup_insert_of_ne _ _ h

theorem ownedRun_insertRun_of_ne {port other : String} (run : OwnedRun) (s : Session)
    (h : other ≠ port) : (s.insertRun port run).ownedRun other = s.ownedRun other := by
  unfold ownedRun insertRun
  cases s.connection with
  | none => rfl
  | some connection => exact OrderedMap.lookup_insert_of_ne _ _ h

theorem ownedRun_forget (port other : String) (s : Session) :
    (s.forget port).ownedRun other = if other = port then none else s.ownedRun other := by
  unfold ownedRun forget
  cases s.connection with
  | none => simp
  | some connection => exact OrderedMap.lookup_erase _ _ _

theorem lease_forget (port other : String) (s : Session) :
    (s.forget port).lease other = if other = port then none else s.lease other := by
  unfold lease forget
  cases s.connection with
  | none => simp
  | some connection => exact OrderedMap.lookup_erase _ _ _

theorem connection_insertLease (port : String) (lease : ControlLease) (s : Session) :
    (s.insertLease port lease).connection.isSome = s.connection.isSome := by
  simp [insertLease]

theorem connection_forget (port : String) (s : Session) :
    (s.forget port).connection.isSome = s.connection.isSome := by
  simp [forget]

end Session

/-! ## Calls -/

/-- `CommandResult`, as far as the calls here read it. -/
inductive CommandResult
  | runStartGranted (approvalId : Uuid) (lease : ControlLease) (run : RunInfo)
  | runStartPending (approval : PendingRunStartApproval)
  | runStartDenied (approvalId : Uuid)
  | runStartTimedOut (approvalId : Uuid)
  | runStartCancelled (approvalId : Uuid)
  | controlRenewed (lease : ControlLease)
  | controlReleased
  | other (debug : String)

/-- What comes back for one request, and how long it takes. -/
structure Answer where
  delay : ℕ
  result : Except String CommandResult

def containsText (text needle : String) : Bool :=
  text.toList.tails.any needle.toList.isPrefixOf

def isTransportError (message : String) : Bool :=
  containsText message "WebSocket" || containsText message "connection" ||
    containsText message "closed"

/-- The Session, the time and what the daemon holds for this Session on the port of the call. -/
inductive PortSide
  | none
  /-- an approval which is pending, or was decided since the Session asked -/
  | waiting
  | running
  deriving DecidableEq

structure World where
  session : Session
  now : ℕ
  side : PortSide

namespace World

def wait (duration : ℕ) (w : World) : World := { w with now := w.now + duration }

/-- The daemon cancels the approvals and aborts the Runs of an Agent which is gone. -/
def disconnect (w : World) : World :=
  { w with session := w.session.disconnect, side := .none }

/-- `call_with_timeout` over an open connection. -/
def callWithTimeout (timeout : ℕ) (answer : Answer) (w : World) :
    Except String CommandResult × World :=
  if answer.delay ≤ timeout then
    match answer.result with
    | .ok result => (.ok result, w.wait answer.delay)
    | .error error =>
        (.error error,
          if isTransportError error then (w.wait answer.delay).disconnect
          else w.wait answer.delay)
  else
    let milliseconds := timeout / 1000000
    (.error s!"timed out after {milliseconds} ms waiting for seriald request",
      (w.wait timeout).disconnect)

def call (answer : Answer) (w : World) : Except String CommandResult × World :=
  w.callWithTimeout defaultRpcTimeout answer

/-- `best_effort_release`: the result is only logged. -/
def bestEffortRelease (port : String) (answer : Answer) (w : World) : World :=
  let forgotten := { w with session := w.session.forget port }
  match w.session.lease port, w.session.connection with
  | some _, some _ => (forgotten.call answer).2
  | _, _ => forgotten

/-! ## Renewals -/

def idlePorts (runIdleTtl : Option ℕ) (now : ℕ) (connection : Connection) : List String :=
  (connection.ownedRuns.entries.filter fun entry => entry.2.idleExpired now runIdleTtl).map
    Prod.fst

/-- The ports whose Runs are not idle; all of them need a lease. -/
def renewalTargets (runIdleTtl : Option ℕ) (now : ℕ) (connection : Connection) :
    Except String (List String) :=
  let ports := (connection.ownedRuns.entries.filter fun entry =>
    !entry.2.idleExpired now runIdleTtl).map Prod.fst
  match ports.find? fun port => (connection.leases.lookup port).isNone with
  | some port => .error s!"active Run on port {port} has no local control lease"
  | none => .ok ports

/-- Releases the idle ports, as long as there is a connection. -/
def releaseIdle (answers : String → Answer) : List String → World → World
  | [], w => w
  | port :: ports, w =>
      let released := w.bestEffortRelease port (answers port)
      if released.session.connection.isNone then released else releaseIdle answers ports released

def renewEach (answers : String → Answer) : List String → World → World
  | [], w => w
  | port :: ports, w =>
      match w.call (answers port) with
      | (.ok (.controlRenewed lease), w) =>
          renewEach answers ports { w with session := w.session.insertLease port lease }
      | (_, w) => w.disconnect

/-- `renew_all`. -/
def renewAll (idleRelease renewal : String → Answer) (w : World) : World :=
  match w.session.connection with
  | none => w.disconnect
  | some connection =>
      if connection.ownedRuns.entries.isEmpty then w
      else
        match renewalTargets w.session.runIdleTtl w.now connection with
        | .error _ => w.disconnect
        | .ok targets =>
            let released :=
              w.releaseIdle idleRelease (idlePorts w.session.runIdleTtl w.now connection)
            if released.session.connection.isNone then released
            else released.renewEach renewal targets

/-! ## What a release and a renewal leave -/

section

variable {w : World}

/-- A late answer is possible only beyond the timeout. -/
theorem callWithTimeout_ok {timeout : ℕ} {answer : Answer} {result : CommandResult}
    (hdelay : answer.delay ≤ timeout) (hresult : answer.result = .ok result) :
    w.callWithTimeout timeout answer = (.ok result, w.wait answer.delay) := by
  simp [callWithTimeout, hdelay, hresult]

theorem callWithTimeout_error {timeout : ℕ} {answer : Answer} {error : String}
    (hdelay : answer.delay ≤ timeout) (hresult : answer.result = .error error) :
    w.callWithTimeout timeout answer =
      (.error error,
        if isTransportError error then (w.wait answer.delay).disconnect
        else w.wait answer.delay) := by
  simp [callWithTimeout, hdelay, hresult]

theorem callWithTimeout_late {timeout : ℕ} {answer : Answer} (hdelay : timeout < answer.delay) :
    ∃ error, w.callWithTimeout timeout answer = (.error error, (w.wait timeout).disconnect) := by
  unfold callWithTimeout
  rw [if_neg (by omega)]
  exact ⟨_, rfl⟩

/-- The answer does not cost the connection where the result is only logged. -/
def Quiet (answer : Answer) : Prop :=
  ∀ error, answer.result = .error error → isTransportError error = false

/-- The daemon has done what the request asks. -/
def Confirmed (answer : Answer) : Prop := ∃ result, answer.result = .ok result

/-- A release which keeps the connection forgets one port. -/
structure Forgets (port : String) (w w' : World) : Prop where
  session : w'.session = w.session.forget port
  now_le : w.now ≤ w'.now
  side : w'.side = w.side

theorem bestEffortRelease_quiet {port : String} {answer : Answer}
    (hdelay : answer.delay ≤ defaultRpcTimeout)
    (hquiet : (w.session.lease port).isSome → Quiet answer) :
    Forgets port w (w.bestEffortRelease port answer) := by
  unfold bestEffortRelease
  dsimp only
  split
  · rename_i lease connection hlease hconnection
    have hquiet := hquiet (by rw [hlease]; rfl)
    cases hresult : answer.result with
    | ok result =>
      rw [call, callWithTimeout_ok hdelay hresult]
      exact ⟨rfl, Nat.le_add_right _ _, rfl⟩
    | error error =>
      rw [call, callWithTimeout_error hdelay hresult, if_neg (by simp [hquiet error hresult])]
      exact ⟨rfl, Nat.le_add_right _ _, rfl⟩
  · exact ⟨rfl, le_refl _, rfl⟩

theorem bestEffortRelease_loud {port : String} {answer : Answer} {lease : ControlLease}
    (hdelay : answer.delay ≤ defaultRpcTimeout) (hlease : w.session.lease port = some lease)
    (hloud : ¬ Quiet answer) :
    (w.bestEffortRelease port answer).session.connection = none ∧
      (w.bestEffortRelease port answer).side = .none ∧
      w.now ≤ (w.bestEffortRelease port answer).now := by
  unfold Quiet at hloud
  push Not at hloud
  obtain ⟨error, hresult, htransport⟩ := hloud
  have htransport : isTransportError error = true := by simpa using htransport
  cases hconnection : w.session.connection with
  | none => simp [Session.lease, hconnection] at hlease
  | some connection =>
    simp only [bestEffortRelease, hlease, hconnection]
    rw [call, callWithTimeout_error hdelay hresult, if_pos htransport]
    exact ⟨rfl, rfl, Nat.le_add_right _ _⟩

/-- The session without the Runs and leases of some ports. -/
structure Released (ports : List String) (w w' : World) : Prop where
  connected : w'.session.connection.isSome = w.session.connection.isSome
  actor : ∀ c c', w.session.connection = some c → w'.session.connection = some c' →
    c'.actor = c.actor
  ttl : w'.session.runIdleTtl = w.session.runIdleTtl
  ownedRun : ∀ port, w'.session.ownedRun port =
    if port ∈ ports then none else w.session.ownedRun port
  lease : ∀ port, w'.session.lease port = if port ∈ ports then none else w.session.lease port
  now_le : w.now ≤ w'.now
  side : w'.side = w.side

theorem Forgets.actor {port : String} {w w' : World} (h : Forgets port w w') {c c' : Connection}
    (hc : w.session.connection = some c) (hc' : w'.session.connection = some c') :
    c'.actor = c.actor := by
  rw [h.session, Session.forget, hc] at hc'
  cases hc'
  rfl

theorem releaseIdle_quiet {answers : String → Answer} (ports : List String)
    (hdelay : ∀ port, (answers port).delay ≤ defaultRpcTimeout) :
    ∀ {w : World}, w.session.connection.isSome = true →
      (∀ port ∈ ports, (w.session.lease port).isSome → Quiet (answers port)) →
      Released ports w (w.releaseIdle answers ports) := by
  induction ports with
  | nil =>
    intro w hconnected hquiet
    refine ⟨rfl, ?_, rfl, by simp [releaseIdle], by simp [releaseIdle], le_refl _, rfl⟩
    intro c c' hc hc'
    rw [releaseIdle, hc] at hc'
    cases hc'
    rfl
  | cons port ports ih =>
    intro w hconnected hquiet
    have hforgets := bestEffortRelease_quiet (hdelay port) (hquiet port List.mem_cons_self)
    have hstill : (w.bestEffortRelease port (answers port)).session.connection.isSome = true := by
      rw [hforgets.session, Session.connection_forget]
      exact hconnected
    have hrest : ∀ other ∈ ports,
        ((w.bestEffortRelease port (answers port)).session.lease other).isSome →
          Quiet (answers other) := by
      intro other hother hlease
      apply hquiet other (List.mem_cons_of_mem _ hother)
      rw [hforgets.session, Session.lease_forget] at hlease
      split at hlease
      · simp at hlease
      · exact hlease
    have htail := ih hstill hrest
    have hnone : ¬ (w.bestEffortRelease port (answers port)).session.connection.isNone = true := by
      rw [Option.isNone_iff_eq_none, ← Option.not_isSome_iff_eq_none, hstill]
      simp
    rw [releaseIdle, if_neg hnone]
    constructor
    · rw [htail.connected, hstill, hconnected]
    · intro c c' hc hc'
      obtain ⟨middle, hmiddle⟩ := Option.isSome_iff_exists.mp hstill
      rw [htail.actor middle c' hmiddle hc', hforgets.actor hc hmiddle]
    · rw [htail.ttl, hforgets.session, Session.runIdleTtl_forget]
    · intro other
      rw [htail.ownedRun, hforgets.session, Session.ownedRun_forget]
      by_cases hport : other = port <;> by_cases hmem : other ∈ ports <;> simp [hport, hmem]
    · intro other
      rw [htail.lease, hforgets.session, Session.lease_forget]
      by_cases hport : other = port <;> by_cases hmem : other ∈ ports <;> simp [hport, hmem]
    · exact hforgets.now_le.trans htail.now_le
    · rw [htail.side, hforgets.side]

/-- A call which costs the connection leaves nothing. -/
structure Lost (w w' : World) : Prop where
  connection : w'.session.connection = none
  side : w'.side = .none
  now_le : w.now ≤ w'.now

theorem releaseIdle_loud {answers : String → Answer} (ports : List String)
    (hdelay : ∀ port, (answers port).delay ≤ defaultRpcTimeout) :
    ∀ {w : World}, w.session.connection.isSome = true →
      ¬ (∀ port ∈ ports, (w.session.lease port).isSome → Quiet (answers port)) →
      Lost w (w.releaseIdle answers ports) := by
  induction ports with
  | nil =>
    intro w hconnected hloud
    simp at hloud
  | cons port ports ih =>
    intro w hconnected hloud
    rw [releaseIdle]
    by_cases hport : (w.session.lease port).isSome → Quiet (answers port)
    · have hforgets := bestEffortRelease_quiet (hdelay port) hport
      have hstill : (w.bestEffortRelease port (answers port)).session.connection.isSome =
          true := by
        rw [hforgets.session, Session.connection_forget]
        exact hconnected
      have hnone : ¬ (w.bestEffortRelease port (answers port)).session.connection.isNone =
          true := by
        rw [Option.isNone_iff_eq_none, ← Option.not_isSome_iff_eq_none, hstill]
        simp
      have hrest : ¬ (∀ other ∈ ports,
          ((w.bestEffortRelease port (answers port)).session.lease other).isSome →
            Quiet (answers other)) := by
        intro hall
        apply hloud
        intro other hother hlease
        by_cases hsame : other = port
        · subst hsame
          exact hport hlease
        · apply hall other (List.mem_of_ne_of_mem hsame hother)
          rw [hforgets.session, Session.lease_forget, if_neg hsame]
          exact hlease
      have htail := ih hstill hrest
      rw [if_neg hnone]
      exact ⟨htail.connection, htail.side, hforgets.now_le.trans htail.now_le⟩
    · rw [Classical.not_imp] at hport
      obtain ⟨hlease, hnot⟩ := hport
      obtain ⟨lease, hlease⟩ := Option.isSome_iff_exists.mp hlease
      have hlost := bestEffortRelease_loud (hdelay port) hlease hnot
      rw [if_pos (by rw [hlost.1]; rfl)]
      exact ⟨hlost.1, hlost.2.1, hlost.2.2⟩

/-- Every lease which came back in a renewal. -/
def Renews (answer : Answer) (lease : ControlLease) : Prop :=
  answer.result = .ok (.controlRenewed lease)

/-- The session with new leases for some ports. -/
structure Renewed (answers : String → Answer) (ports : List String) (w w' : World) : Prop where
  connected : w'.session.connection.isSome = w.session.connection.isSome
  actor : ∀ c c', w.session.connection = some c → w'.session.connection = some c' →
    c'.actor = c.actor
  ttl : w'.session.runIdleTtl = w.session.runIdleTtl
  ownedRun : ∀ port, w'.session.ownedRun port = w.session.ownedRun port
  lease : ∀ port, w'.session.lease port = w.session.lease port ∨
    port ∈ ports ∧ ∃ lease, w'.session.lease port = some lease ∧ Renews (answers port) lease
  now_le : w.now ≤ w'.now
  side : w'.side = w.side

/-- The daemon answers a renewal with a lease or refuses it. -/
def AnswersRenewal (answer : Answer) : Prop :=
  answer.delay ≤ defaultRpcTimeout ∧
    ∀ result, answer.result = .ok result → ∃ lease, result = .controlRenewed lease

theorem insertLease_actor {port : String} {lease : ControlLease} {s : Session} {c c' : Connection}
    (hc : s.connection = some c) (hc' : (s.insertLease port lease).connection = some c') :
    c'.actor = c.actor := by
  rw [Session.insertLease, hc] at hc'
  cases hc'
  rfl

theorem renewEach_confirmed {answers : String → Answer} (ports : List String)
    (hanswers : ∀ port, AnswersRenewal (answers port)) :
    ∀ {w : World}, w.session.connection.isSome = true →
      (∀ port ∈ ports, Confirmed (answers port)) →
      Renewed answers ports w (w.renewEach answers ports) := by
  induction ports with
  | nil =>
    intro w hconnected hconfirmed
    refine ⟨rfl, ?_, rfl, fun _ => rfl, fun _ => .inl rfl, le_refl _, rfl⟩
    intro c c' hc hc'
    rw [renewEach, hc] at hc'
    cases hc'
    rfl
  | cons port ports ih =>
    intro w hconnected hconfirmed
    obtain ⟨result, hresult⟩ := hconfirmed port List.mem_cons_self
    obtain ⟨lease, rfl⟩ := (hanswers port).2 result hresult
    simp only [renewEach, call, callWithTimeout_ok (hanswers port).1 hresult]
    generalize hw' : World.mk ((w.wait (answers port).delay).session.insertLease port lease)
      (w.wait (answers port).delay).now (w.wait (answers port).delay).side = w'
    have hsession : w'.session = w.session.insertLease port lease := by rw [← hw']; rfl
    have hnow : w.now ≤ w'.now := by rw [← hw']; exact Nat.le_add_right _ _
    have hside : w'.side = w.side := by rw [← hw']; rfl
    have hstill : w'.session.connection.isSome = true := by
      rw [hsession, Session.connection_insertLease]
      exact hconnected
    have htail := ih hstill fun other hother => hconfirmed other (List.mem_cons_of_mem _ hother)
    constructor
    · rw [htail.connected, hstill, hconnected]
    · intro c c' hc hc'
      obtain ⟨middle, hmiddle⟩ := Option.isSome_iff_exists.mp hstill
      rw [htail.actor middle c' hmiddle hc']
      rw [hsession] at hmiddle
      exact insertLease_actor hc hmiddle
    · rw [htail.ttl, hsession, Session.runIdleTtl_insertLease]
    · intro other
      rw [htail.ownedRun, hsession, Session.ownedRun_insertLease]
    · intro other
      rcases htail.lease other with hsame | ⟨hmem, hlease⟩
      · rw [hsame, hsession]
        by_cases hother : other = port
        · subst hother
          refine .inr ⟨List.mem_cons_self, lease, ?_, hresult⟩
          obtain ⟨c, hc⟩ := Option.isSome_iff_exists.mp hconnected
          simp [Session.lease, Session.insertLease, hc]
        · exact .inl (Session.lease_insertLease_of_ne lease _ hother)
      · exact .inr ⟨List.mem_cons_of_mem _ hmem, hlease⟩
    · exact hnow.trans htail.now_le
    · rw [htail.side, hside]

theorem renewEach_refused {answers : String → Answer} (ports : List String)
    (hanswers : ∀ port, AnswersRenewal (answers port)) :
    ∀ {w : World}, ¬ (∀ port ∈ ports, Confirmed (answers port)) →
      Lost w (w.renewEach answers ports) := by
  induction ports with
  | nil =>
    intro w hrefused
    simp at hrefused
  | cons port ports ih =>
    intro w hrefused
    cases hresult : (answers port).result with
    | ok result =>
      obtain ⟨lease, rfl⟩ := (hanswers port).2 result hresult
      have hrest : ¬ ∀ other ∈ ports, Confirmed (answers other) := by
        intro hall
        apply hrefused
        intro other hother
        rcases List.mem_cons.mp hother with rfl | hother
        · exact ⟨_, hresult⟩
        · exact hall other hother
      simp only [renewEach, call, callWithTimeout_ok (hanswers port).1 hresult]
      have htail := @ih { w.wait (answers port).delay with
        session := (w.wait (answers port).delay).session.insertLease port lease } hrest
      exact ⟨htail.connection, htail.side, (Nat.le_add_right _ _).trans htail.now_le⟩
    | error error =>
      simp only [renewEach, call, callWithTimeout_error (hanswers port).1 hresult]
      refine ⟨rfl, rfl, ?_⟩
      split_ifs <;> exact Nat.le_add_right _ _

/-! ## All renewals -/

theorem mem_idlePorts {s : Session} {c : Connection} (hc : s.connection = some c) {now : ℕ}
    {port : String} :
    port ∈ idlePorts s.runIdleTtl now c ↔
      ∃ run, s.ownedRun port = some run ∧ run.idleExpired now s.runIdleTtl = true := by
  unfold idlePorts Session.ownedRun
  simp only [hc, Option.bind_some, OrderedMap.lookup_eq_some_iff, List.mem_map, List.mem_filter]
  constructor
  · rintro ⟨⟨key, run⟩, ⟨hmem, hidle⟩, rfl⟩
    exact ⟨run, hmem, hidle⟩
  · rintro ⟨run, hmem, hidle⟩
    exact ⟨(port, run), ⟨hmem, hidle⟩, rfl⟩

theorem renewalTargets_ok {s : Session} {c : Connection} (hc : s.connection = some c) {now : ℕ}
    {targets : List String} (h : renewalTargets s.runIdleTtl now c = .ok targets) (port : String) :
    port ∈ targets ↔
      ∃ run, s.ownedRun port = some run ∧ run.idleExpired now s.runIdleTtl = false := by
  unfold renewalTargets at h
  dsimp only at h
  split at h
  · cases h
  · cases h
    unfold Session.ownedRun
    simp only [hc, Option.bind_some, OrderedMap.lookup_eq_some_iff, List.mem_map, List.mem_filter]
    constructor
    · rintro ⟨⟨key, run⟩, ⟨hmem, hidle⟩, rfl⟩
      exact ⟨run, hmem, by simpa using hidle⟩
    · rintro ⟨run, hmem, hidle⟩
      exact ⟨(port, run), ⟨hmem, by simpa using hidle⟩, rfl⟩

/-- Every Run which is not idle has a lease, and the daemon renews it; every idle one is
released over a connection which stays. -/
def Renewable (idleRelease renewal : String → Answer) (w : World) : Prop :=
  ∀ port run, w.session.ownedRun port = some run →
    if run.idleExpired w.now w.session.runIdleTtl then
      (w.session.lease port).isSome → Quiet (idleRelease port)
    else (w.session.lease port).isSome ∧ Confirmed (renewal port)

theorem renewalTargets_error_iff {s : Session} {c : Connection} (hc : s.connection = some c)
    {now : ℕ} :
    (∃ error, renewalTargets s.runIdleTtl now c = .error error) ↔
      ∃ port run, s.ownedRun port = some run ∧ run.idleExpired now s.runIdleTtl = false ∧
        s.lease port = none := by
  unfold renewalTargets
  dsimp only
  split
  · rename_i port hfind
    simp only [Except.error.injEq, exists_eq', true_iff]
    have hmem := List.mem_of_find?_eq_some hfind
    have hnone := List.find?_some hfind
    simp only [List.mem_map, List.mem_filter] at hmem
    obtain ⟨⟨key, run⟩, ⟨hrun, hidle⟩, rfl⟩ := hmem
    refine ⟨key, run, ?_, by simpa using hidle, ?_⟩
    · simp [Session.ownedRun, hc, OrderedMap.lookup_eq_some_iff, hrun]
    · simpa [Session.lease, hc] using hnone
  · rename_i hfind
    simp only [reduceCtorEq, exists_false, false_iff, not_exists, not_and]
    intro port run hrun hidle hlease
    rw [List.find?_eq_none] at hfind
    apply hfind port
    · simp only [List.mem_map, List.mem_filter]
      refine ⟨(port, run), ⟨?_, by simpa using hidle⟩, rfl⟩
      simpa [Session.ownedRun, hc, OrderedMap.lookup_eq_some_iff] using hrun
    · simpa [Session.lease, hc] using hlease

/-- What a renewal of all Runs keeps. -/
structure RenewedAll (renewal : String → Answer) (w w' : World) : Prop where
  connected : w'.session.connection.isSome = w.session.connection.isSome
  actor : ∀ c c', w.session.connection = some c → w'.session.connection = some c' →
    c'.actor = c.actor
  ttl : w'.session.runIdleTtl = w.session.runIdleTtl
  unowned : ∀ port, w.session.ownedRun port = none →
    w'.session.ownedRun port = none ∧ w'.session.lease port = w.session.lease port
  expired : ∀ port run, w.session.ownedRun port = some run →
    run.idleExpired w.now w.session.runIdleTtl = true →
      w'.session.ownedRun port = none ∧ w'.session.lease port = none
  owned : ∀ port run, w.session.ownedRun port = some run →
    run.idleExpired w.now w.session.runIdleTtl = false →
      w'.session.ownedRun port = some run ∧
        (w'.session.lease port = w.session.lease port ∨
          ∃ lease, w'.session.lease port = some lease ∧ Renews (renewal port) lease)
  now_le : w.now ≤ w'.now
  side : w'.side = w.side

section

variable {idleRelease renewal : String → Answer}

theorem renewAll_of_empty (idleRelease renewal : String → Answer) {c : Connection} (hc : w.session.connection = some c)
    (hempty : c.ownedRuns.entries.isEmpty = true) :
    w.renewAll idleRelease renewal = w ∧ ∀ port, w.session.ownedRun port = none := by
  constructor
  · simp [renewAll, hc, hempty]
  · intro port
    simp [Session.ownedRun, hc, OrderedMap.lookup, List.isEmpty_iff.mp hempty]

theorem renewAll_renewable (hrelease : ∀ port, (idleRelease port).delay ≤ defaultRpcTimeout)
    (hrenewal : ∀ port, AnswersRenewal (renewal port))
    (hconnected : w.session.connection.isSome = true) (h : w.Renewable idleRelease renewal) :
    RenewedAll renewal w (w.renewAll idleRelease renewal) := by
  obtain ⟨c, hc⟩ := Option.isSome_iff_exists.mp hconnected
  by_cases hempty : c.ownedRuns.entries.isEmpty = true
  · obtain ⟨hsame, hnone⟩ := renewAll_of_empty idleRelease renewal hc hempty
    rw [hsame]
    refine ⟨rfl, ?_, rfl, fun port hport => ⟨hport, rfl⟩, ?_, ?_, le_refl _, rfl⟩
    · intro c₁ c₂ h₁ h₂
      rw [h₁] at h₂
      cases h₂
      rfl
    · intro port run hrun
      rw [hnone port] at hrun
      cases hrun
    · intro port run hrun
      rw [hnone port] at hrun
      cases hrun
  cases htargets : renewalTargets w.session.runIdleTtl w.now c with
  | error error =>
    exfalso
    obtain ⟨port, run, hrun, hidle, hlease⟩ := (renewalTargets_error_iff hc).mp ⟨error, htargets⟩
    have hport := h port run hrun
    simp [hidle, hlease] at hport
  | ok targets =>
    have hquiet : ∀ port ∈ idlePorts w.session.runIdleTtl w.now c,
        (w.session.lease port).isSome → Quiet (idleRelease port) := by
      intro port hport
      obtain ⟨run, hrun, hidle⟩ := (mem_idlePorts hc).mp hport
      have hrenewable := h port run hrun
      rw [if_pos hidle] at hrenewable
      exact hrenewable
    have hconfirmed : ∀ port ∈ targets, Confirmed (renewal port) := by
      intro port hport
      obtain ⟨run, hrun, hidle⟩ := (renewalTargets_ok hc htargets port).mp hport
      have hrenewable := h port run hrun
      rw [hidle, if_neg (by decide)] at hrenewable
      exact hrenewable.2
    have hreleased := releaseIdle_quiet (idlePorts w.session.runIdleTtl w.now c) hrelease
      hconnected hquiet
    have hstill : (w.releaseIdle idleRelease
        (idlePorts w.session.runIdleTtl w.now c)).session.connection.isSome = true := by
      rw [hreleased.connected, hconnected]
    have hrenewed := renewEach_confirmed targets hrenewal hstill hconfirmed
    have heq : w.renewAll idleRelease renewal = (w.releaseIdle idleRelease
        (idlePorts w.session.runIdleTtl w.now c)).renewEach renewal targets := by
      simp only [renewAll, hc, hempty, htargets]
      rw [if_neg (by decide), if_neg]
      rw [Option.isNone_iff_eq_none, ← Option.not_isSome_iff_eq_none, hstill]
      decide
    rw [heq]
    constructor
    · rw [hrenewed.connected, hreleased.connected]
    · intro c₁ c₂ h₁ h₂
      obtain ⟨middle, hmiddle⟩ := Option.isSome_iff_exists.mp hstill
      rw [hrenewed.actor middle c₂ hmiddle h₂, hreleased.actor c₁ middle h₁ hmiddle]
    · rw [hrenewed.ttl, hreleased.ttl]
    · intro port hport
      have hidle : port ∉ idlePorts w.session.runIdleTtl w.now c := by
        rw [mem_idlePorts hc]
        simp [hport]
      have htarget : port ∉ targets := by
        rw [renewalTargets_ok hc htargets]
        simp [hport]
      rw [hrenewed.ownedRun, hreleased.ownedRun, if_neg hidle]
      refine ⟨hport, ?_⟩
      rcases hrenewed.lease port with hsame | ⟨hmem, -⟩
      · rw [hsame, hreleased.lease, if_neg hidle]
      · exact absurd hmem htarget
    · intro port run hrun hexpired
      have hidle : port ∈ idlePorts w.session.runIdleTtl w.now c :=
        (mem_idlePorts hc).mpr ⟨run, hrun, hexpired⟩
      have htarget : port ∉ targets := by
        rw [renewalTargets_ok hc htargets]
        simp [hrun, hexpired]
      rw [hrenewed.ownedRun, hreleased.ownedRun, if_pos hidle]
      refine ⟨rfl, ?_⟩
      rcases hrenewed.lease port with hsame | ⟨hmem, -⟩
      · rw [hsame, hreleased.lease, if_pos hidle]
      · exact absurd hmem htarget
    · intro port run hrun hactive
      have hidle : port ∉ idlePorts w.session.runIdleTtl w.now c := by
        rw [mem_idlePorts hc]
        simp [hrun, hactive]
      rw [hrenewed.ownedRun, hreleased.ownedRun, if_neg hidle]
      refine ⟨hrun, ?_⟩
      rcases hrenewed.lease port with hsame | ⟨-, hlease⟩
      · left
        rw [hsame, hreleased.lease, if_neg hidle]
      · exact .inr hlease
    · exact hreleased.now_le.trans hrenewed.now_le
    · rw [hrenewed.side, hreleased.side]

theorem renewAll_lost (hrelease : ∀ port, (idleRelease port).delay ≤ defaultRpcTimeout)
    (hrenewal : ∀ port, AnswersRenewal (renewal port))
    (hconnected : w.session.connection.isSome = true) (h : ¬ w.Renewable idleRelease renewal) :
    Lost w (w.renewAll idleRelease renewal) := by
  obtain ⟨c, hc⟩ := Option.isSome_iff_exists.mp hconnected
  have hempty : ¬ c.ownedRuns.entries.isEmpty = true := by
    intro hempty
    apply h
    intro port run hrun
    rw [(renewAll_of_empty idleRelease renewal hc hempty).2 port]
      at hrun
    cases hrun
  simp only [renewAll, hc]
  rw [if_neg hempty]
  cases htargets : renewalTargets w.session.runIdleTtl w.now c with
  | error error => exact ⟨rfl, rfl, le_refl _⟩
  | ok targets =>
    dsimp only
    by_cases hquiet : ∀ port ∈ idlePorts w.session.runIdleTtl w.now c,
        (w.session.lease port).isSome → Quiet (idleRelease port)
    · have hreleased := releaseIdle_quiet (idlePorts w.session.runIdleTtl w.now c) hrelease
        hconnected hquiet
      rw [if_neg (by
        rw [Option.isNone_iff_eq_none, ← Option.not_isSome_iff_eq_none, hreleased.connected,
          hconnected]
        decide)]
      have hrefused : ¬ ∀ port ∈ targets, Confirmed (renewal port) := by
        intro hconfirmed
        apply h
        intro port run hrun
        cases hidle : run.idleExpired w.now w.session.runIdleTtl with
        | true =>
          rw [if_pos rfl]
          exact hquiet port ((mem_idlePorts hc).mpr ⟨run, hrun, hidle⟩)
        | false =>
          rw [if_neg (by decide)]
          refine ⟨?_, hconfirmed port ((renewalTargets_ok hc htargets port).mpr ⟨run, hrun, hidle⟩)⟩
          by_contra hlease
          rw [Option.not_isSome_iff_eq_none] at hlease
          obtain ⟨error, herror⟩ :=
            (renewalTargets_error_iff hc).mpr ⟨port, run, hrun, hidle, hlease⟩
          rw [htargets] at herror
          cases herror
      have hlost := renewEach_refused targets hrenewal hrefused
        (w := w.releaseIdle idleRelease (idlePorts w.session.runIdleTtl w.now c))
      exact ⟨hlost.connection, hlost.side, hreleased.now_le.trans hlost.now_le⟩
    · have hlost := releaseIdle_loud (idlePorts w.session.runIdleTtl w.now c) hrelease
        hconnected hquiet
      rw [if_pos (by rw [hlost.connection]; rfl)]
      exact hlost

end

end

end World

end SerialPlatform.Agent
