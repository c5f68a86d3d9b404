import SerialPlatform.DesktopClient
import Mathlib.Tactic

/-!
# The course of the reconnect loop

What decides whether the client works towards a connection is the reconnect loop with its
timers, the connection version, whether a socket is ready, and for each call under way its
caller and its version.  Sockets, requests and the stages of the calls do not matter to it.
-/

namespace SerialPlatform.Desktop

/-- A call without its stage. -/
structure CallKey where
  id : ℕ
  caller : Caller
  version : ℕ
  deriving DecidableEq

def Call.key (call : Call) : CallKey := ⟨call.id, call.caller, call.version⟩

@[ext]
structure Course where
  stopped : Bool
  ready : Bool
  version : ℕ
  loop : ReconnectLoop
  timers : List RetryTimer
  keys : List CallKey
  nextId : ℕ

namespace SerialClient

def course (client : SerialClient) : Course where
  stopped := client.stopped
  ready := client.readySocket.isSome
  version := client.connectionVersion
  loop := client.reconnectLoop
  timers := client.timers
  keys := client.calls.map Call.key
  nextId := client.nextId

/-! ## What leaves the course alone -/

@[simp] theorem course_mapStages (change : Stage → Stage) (client : SerialClient) :
    (client.mapStages change).course = client.course := by
  simp [mapStages, course, Call.key, Function.comp_def]

@[simp] theorem course_failCalls (waits : Stage → Bool) (client : SerialClient) :
    (client.failCalls waits).course = client.course := by
  simp [failCalls]

@[simp] theorem course_rejectPending (client : SerialClient) :
    client.rejectPending.course = client.course := by
  have h := course_failCalls
    (fun stage => client.pending.any fun request => awaitsRequest request.requestId stage) client
  simpa [rejectPending, course] using h

@[simp] theorem course_rejectSocketHandshake (socket : SocketId) (client : SerialClient) :
    (client.rejectSocketHandshake socket).course = client.course := by
  have h := course_failCalls (awaitsWelcome socket) client
  unfold rejectSocketHandshake
  split
  · rfl
  · split
    · simpa [course] using h
    · rfl

@[simp] theorem course_setReadyState (socket : SocketId) (state : ReadyState)
    (client : SerialClient) : (client.setReadyState socket state).course = client.course := rfl

@[simp] theorem course_setListening (socket : SocketId) (listening : Bool)
    (client : SerialClient) : (client.setListening socket listening).course = client.course := rfl

@[simp] theorem course_closeSocket (socket : SocketId) (client : SerialClient) :
    (client.closeSocket socket).course = client.course := by
  unfold closeSocket
  split <;> rfl

@[simp] theorem course_terminate (socket : SocketId) (client : SerialClient) :
    (client.terminate socket).course = client.course := by
  unfold terminate
  split <;> rfl

@[simp] theorem course_setStage (id : ℕ) (stage : Stage) (client : SerialClient) :
    (client.setStage id stage).course = client.course := by
  have hkey : ∀ call : Call,
      (if call.id = id then { call with stage := stage } else call).key = call.key := by
    intro call
    split <;> rfl
  simp [setStage, course, Function.comp_def, hkey]

@[simp] theorem course_settleRequest (request : PendingRequest) (outcome : Outcome)
    (client : SerialClient) : (client.settleRequest request outcome).course = client.course := by
  cases outcome <;> simp only [settleRequest, course_mapStages, course_failCalls] <;> rfl

@[simp] theorem course_resolveWelcome (socket : SocketId) (actor : Actor)
    (client : SerialClient) : (client.resolveWelcome socket actor).course = client.course := by
  have h := course_mapStages (Stage.welcomed socket actor) client
  simpa [resolveWelcome, course] using h

@[simp] theorem course_socketOpens (socket : SocketId) (client : SerialClient) :
    (client.socketOpens socket).course = client.course := by
  simp [socketOpens]

theorem course_control {client sent : SerialClient} {socket : SocketId}
    {message : RequestId → ClientMessage} {uncertain : Bool} {codes : List String}
    (h : client.control socket message uncertain codes = some sent) :
    sent.course = { client.course with nextId := client.nextId + 1 } := by
  unfold control at h
  split at h
  · cases h
    rfl
  · simp at h

theorem course_install {client next : SerialClient} {response : StatusResponse}
    (h : client.install response = some next) :
    next.course = { client.course with nextId := client.nextId + 1 } := by
  unfold install at h
  split at h
  · simp at h
  · split at h
    · cases h
      rfl
    · simp at h

/-- What a frame which does not throw can do. -/
theorem receive_cases {client next : SerialClient} {socket : SocketId} {frame : ServerFrame}
    (h : client.receive socket frame = some next) :
    next = client ∨ (∃ actor, next = client.resolveWelcome socket actor) ∨
      ∃ request ∈ client.pending, ∃ outcome, next = client.settleRequest request outcome := by
  cases frame with
  | undecodable => simp [receive] at h
  | data port daemonEpoch =>
      simp only [receive, Option.ite_none_right_eq_some] at h
      exact Or.inl (Option.some.inj h.2).symm
  | timeline port daemonEpoch =>
      simp only [receive, Option.ite_none_right_eq_some] at h
      exact Or.inl (Option.some.inj h.2).symm
  | snapshot port daemonEpoch =>
      cases port with
      | none => simp [receive] at h
      | some port =>
          simp only [receive, Option.ite_none_right_eq_some] at h
          exact Or.inl (Option.some.inj h.2).symm
  | welcome protocolVersion serverId daemonEpoch actor =>
      simp only [receive] at h
      split at h
      · split at h
        · exact Or.inr (Or.inl ⟨_, (Option.some.inj h).symm⟩)
        · simp at h
      · simp at h
  | result requestId reply =>
      simp only [receive] at h
      split at h
      · exact Or.inl (Option.some.inj h).symm
      · rename_i request hfind
        exact Or.inr (Or.inr ⟨request, List.mem_of_find?_eq_some hfind, _,
          (Option.some.inj h).symm⟩)
  | error requestId code =>
      cases requestId with
      | none => simp [receive] at h
      | some requestId =>
          simp only [receive] at h
          split at h
          · simp at h
          · rename_i request hfind
            exact Or.inr (Or.inr ⟨request, List.mem_of_find?_eq_some hfind, _,
              (Option.some.inj h).symm⟩)
  | gap port | lagged port | replayBegin port | ready port =>
      exact Or.inl (Option.some.inj h).symm

theorem course_receive {client next : SerialClient} {socket : SocketId} {frame : ServerFrame}
    (h : client.receive socket frame = some next) : next.course = client.course := by
  obtain rfl | ⟨actor, rfl⟩ | ⟨request, _, outcome, rfl⟩ := receive_cases h
  · rfl
  · exact course_resolveWelcome socket actor client
  · exact course_settleRequest request outcome client

@[simp] theorem course_onSocketMessage (socket : SocketId) (frame : ServerFrame)
    (client : SerialClient) : (client.onSocketMessage socket frame).course = client.course := by
  unfold onSocketMessage
  split
  · rfl
  · split
    · rename_i next hreceive
      exact course_receive hreceive
    · split <;> simp

@[simp] theorem course_onSocketError (socket : SocketId) (client : SerialClient) :
    (client.onSocketError socket).course = client.course := by
  unfold onSocketError
  split <;> simp

end SerialClient

namespace Course

def endCall (id : ℕ) (course : Course) : Course :=
  { course with keys := course.keys.filter fun key => key.id ≠ id }

def schedule (course : Course) : Course :=
  if course.loop.timer.isSome ∨ course.loop.runningGeneration = some course.loop.generation then
    course
  else
    { course with
      loop := { course.loop with timer := some course.nextId }
      timers := course.timers ++ [{
        id := course.nextId
        generation := course.loop.generation
        delay := min maxDelayMs (minDelayMs * 2 ^ min course.loop.failures 10) }]
      nextId := course.nextId + 1 }

/-- The counters of the loop once the attempt of a generation has ended. -/
def settle (generation : ℕ) (succeeded : Bool) (course : Course) : Course :=
  { course with
    loop := {
      course.loop with
      failures :=
        if generation = course.loop.generation then
          if succeeded then 0 else course.loop.failures + 1
        else course.loop.failures
      runningGeneration :=
        if course.loop.runningGeneration = some generation then none
        else course.loop.runningGeneration } }

def runEnds (generation : ℕ) (succeeded : Bool) (course : Course) : Course :=
  if generation = course.loop.generation ∧ !succeeded then
    (course.settle generation succeeded).schedule
  else course.settle generation succeeded

def callerReturns (caller : Caller) (course : Course) : Course :=
  match caller with
  | .run generation => course.runEnds generation true
  | .start | .reconnectSocket => course

def callerThrows (caller : Caller) (course : Course) : Course :=
  match caller with
  | .run generation => course.runEnds generation false
  | .reconnectSocket => if course.stopped then course else course.schedule
  | .start => course

end Course

namespace SerialClient

@[simp] theorem course_endCall (id : ℕ) (client : SerialClient) :
    (client.endCall id).course = client.course.endCall id := by
  simp only [endCall, course, Course.endCall, List.filter_map]
  rfl

@[simp] theorem course_schedule (client : SerialClient) :
    client.schedule.course = client.course.schedule := by
  by_cases hidle : client.reconnectLoop.timer.isSome ∨
      client.reconnectLoop.runningGeneration = some client.reconnectLoop.generation
  · have hcourse : client.course.loop.timer.isSome ∨
        client.course.loop.runningGeneration = some client.course.loop.generation := hidle
    rw [schedule, if_pos hidle, Course.schedule, if_pos hcourse]
  · have hcourse : ¬(client.course.loop.timer.isSome ∨
        client.course.loop.runningGeneration = some client.course.loop.generation) := hidle
    rw [schedule, if_neg hidle, Course.schedule, if_neg hcourse]
    rfl

@[simp] theorem course_runEnds (generation : ℕ) (succeeded : Bool) (client : SerialClient) :
    (client.runEnds generation succeeded).course =
      client.course.runEnds generation succeeded := by
  by_cases hretry : generation = client.reconnectLoop.generation ∧ (!succeeded) = true
  · have hcourse : generation = client.course.loop.generation ∧ (!succeeded) = true := hretry
    unfold runEnds Course.runEnds
    simp only [if_pos hretry.1, if_pos hretry, if_pos hcourse, course_schedule]
    simp only [Course.settle, if_pos hcourse.1]
    rfl
  · have hcourse : ¬(generation = client.course.loop.generation ∧ (!succeeded) = true) := hretry
    unfold runEnds Course.runEnds
    simp only [if_neg hretry, if_neg hcourse]
    rfl

@[simp] theorem course_callerReturns (caller : Caller) (client : SerialClient) :
    (client.callerReturns caller).course = client.course.callerReturns caller := by
  cases caller <;> simp [callerReturns, Course.callerReturns]

@[simp] theorem course_callerThrows (caller : Caller) (client : SerialClient) :
    (client.callerThrows caller).course = client.course.callerThrows caller := by
  cases caller with
  | start => rfl
  | run generation => simp [callerThrows, Course.callerThrows]
  | reconnectSocket =>
      simp only [callerThrows, Course.callerThrows]
      by_cases hstopped : client.stopped = true
      · have hcourse : client.course.stopped = true := hstopped
        rw [if_pos hstopped, if_pos hcourse]
      · have hcourse : ¬client.course.stopped = true := hstopped
        rw [if_neg hstopped, if_neg hcourse, course_schedule]

end SerialClient

/-! ## The invariant of the course -/

namespace Course

/-- Calls of an older version are on their way out, and at most one call is of the current
version.  A timer is set for the current generation only. -/
structure Orderly (course : Course) : Prop where
  generation : course.loop.generation = course.version
  timers : (course.timers = [] ∧ course.loop.timer = none) ∨
    ∃ timer, course.timers = [timer] ∧ course.loop.timer = some timer.id ∧
      timer.generation = course.version
  distinct : (course.keys.map CallKey.id).Nodup
  fresh : ∀ key ∈ course.keys, key.id < course.nextId
  versions : ∀ key ∈ course.keys, key.version ≤ course.version
  callers : ∀ key ∈ course.keys,
    key.caller = .run key.version ∨
      key.caller = .reconnectSocket ∧ (key.version = course.version ∨ course.stopped)
  alone : ∀ key ∈ course.keys, ∀ other ∈ course.keys,
    key.version = course.version → other.version = course.version → key = other
  started : ∀ generation, course.loop.runningGeneration = some generation →
    generation ≤ course.version
  running : course.loop.runningGeneration = some course.version ↔
    ∃ key ∈ course.keys, key.caller = .run course.version
  retry : course.loop.timer ≠ none → ∀ key ∈ course.keys, key.version = course.version →
    key.caller = .reconnectSocket
  stopped : course.stopped → course.loop.timer = none ∧ ∀ key ∈ course.keys,
    key.version ≠ course.version
  ready : course.ready → course.stopped = false ∧ course.loop.timer = none ∧
    ∀ key ∈ course.keys, key.version ≠ course.version

/-- A timer is pending or a call of the current version is under way. -/
def Working (course : Course) : Prop :=
  course.loop.timer ≠ none ∨ ∃ key ∈ course.keys, key.version = course.version

structure Steady (course : Course) : Prop extends Orderly course where
  working : course.stopped = false → course.ready = false → course.Working

variable {course : Course} {key : CallKey}

theorem Orderly.later (h : course.Orderly) :
    { course with nextId := course.nextId + 1 }.Orderly :=
  { h with fresh := fun key hkey => Nat.lt_succ_of_lt (h.fresh key hkey) }

theorem Steady.later (h : course.Steady) :
    { course with nextId := course.nextId + 1 }.Steady :=
  { h.toOrderly.later with working := h.working }

theorem mem_endCall {id : ℕ} :
    key ∈ (course.endCall id).keys ↔ key ∈ course.keys ∧ key.id ≠ id := by
  simp [endCall]

/-- Two calls under way with one number are the same. -/
theorem Orderly.eq_of_id (h : course.Orderly) {other : CallKey} (hkey : key ∈ course.keys)
    (hother : other ∈ course.keys) (hid : key.id = other.id) : key = other :=
  List.inj_on_of_nodup_map h.distinct hkey hother hid

theorem Orderly.version_of_run (h : course.Orderly) (hkey : key ∈ course.keys)
    (hcaller : key.caller = .run course.version) : key.version = course.version := by
  cases h.callers key hkey with
  | inl hrun =>
      rw [hrun] at hcaller
      exact Caller.run.inj hcaller
  | inr hexplicit => simp [hexplicit.1] at hcaller

/-- `schedule` sees to it that something is under way. -/
theorem Orderly.schedule (h : course.Orderly) (hstopped : course.stopped = false)
    (hready : course.ready = false) : course.schedule.Steady := by
  by_cases hidle : course.loop.timer.isSome ∨
      course.loop.runningGeneration = some course.loop.generation
  · rw [Course.schedule, if_pos hidle]
    refine { h with working := fun _ _ => ?_ }
    cases hidle with
    | inl htimer =>
        left
        intro hnone
        simp [hnone] at htimer
    | inr hrunning =>
        right
        rw [h.generation, h.running] at hrunning
        obtain ⟨key, hkey, hcaller⟩ := hrunning
        exact ⟨key, hkey, h.version_of_run hkey hcaller⟩
  · have hnotimer : course.loop.timer = none := by
      cases htimer : course.loop.timer with
      | none => rfl
      | some id => simp [htimer] at hidle
    have hnorun : course.loop.runningGeneration ≠ some course.version := by
      intro hrun
      apply hidle
      right
      rw [hrun, h.generation]
    have htimers : course.timers = [] := by
      cases h.timers with
      | inl hnone => exact hnone.1
      | inr hsome =>
          obtain ⟨timer, _, htimer, _⟩ := hsome
          simp [hnotimer] at htimer
    rw [Course.schedule, if_neg hidle]
    exact {
      generation := h.generation
      timers := by
        right
        rw [htimers]
        exact ⟨_, rfl, rfl, h.generation⟩
      distinct := h.distinct
      fresh := fun key hkey => Nat.lt_succ_of_lt (h.fresh key hkey)
      versions := h.versions
      callers := h.callers
      alone := h.alone
      started := h.started
      running := h.running
      retry := by
        intro _ key hkey hversion
        cases h.callers key hkey with
        | inl hrun =>
            exact absurd (h.running.mpr ⟨key, hkey, by rw [hrun, hversion]⟩) hnorun
        | inr hexplicit => exact hexplicit.1
      stopped := by
        intro h'
        simp [hstopped] at h'
      ready := by
        intro h'
        simp [hready] at h'
      working := by
        intro _ _
        left
        simp }

/-! ### A call ends -/

/-- A call of an older version goes. -/
theorem Steady.endCall_stale (h : course.Steady) (hkey : key ∈ course.keys)
    (hstale : key.version ≠ course.version) : (course.endCall key.id).Steady := by
  have hkeep : ∀ other ∈ course.keys, other.version = course.version → other.id ≠ key.id := by
    intro other hother hversion hid
    rw [h.eq_of_id hother hkey hid] at hversion
    exact hstale hversion
  exact {
    generation := h.generation
    timers := h.timers
    distinct := h.distinct.sublist (List.filter_sublist.map _)
    fresh := fun other hother => h.fresh other (mem_endCall.mp hother).1
    versions := fun other hother => h.versions other (mem_endCall.mp hother).1
    callers := fun other hother => h.callers other (mem_endCall.mp hother).1
    alone := fun other hother another hanother =>
      h.alone other (mem_endCall.mp hother).1 another (mem_endCall.mp hanother).1
    started := h.started
    running := by
      rw [show (course.endCall key.id).loop = course.loop from rfl,
        show (course.endCall key.id).version = course.version from rfl, h.running]
      constructor
      · intro hrun
        obtain ⟨other, hother, hcaller⟩ := hrun
        have hne := hkeep other hother (h.version_of_run hother hcaller)
        exact ⟨other, mem_endCall.mpr ⟨hother, hne⟩, hcaller⟩
      · intro hrun
        obtain ⟨other, hother, hcaller⟩ := hrun
        exact ⟨other, (mem_endCall.mp hother).1, hcaller⟩
    retry := fun htimer other hother => h.retry htimer other (mem_endCall.mp hother).1
    stopped := fun hstopped => ⟨(h.stopped hstopped).1, fun other hother =>
      (h.stopped hstopped).2 other (mem_endCall.mp hother).1⟩
    ready := fun hready => ⟨(h.ready hready).1, (h.ready hready).2.1, fun other hother =>
      (h.ready hready).2.2 other (mem_endCall.mp hother).1⟩
    working := by
      intro hstopped hready
      cases h.working hstopped hready with
      | inl htimer => exact Or.inl htimer
      | inr hcall =>
          obtain ⟨other, hother, hversion⟩ := hcall
          exact Or.inr ⟨other, mem_endCall.mpr ⟨hother, hkeep other hother hversion⟩, hversion⟩ }

/-- The attempt of an older generation ends. -/
theorem Steady.runEnds_stale (h : course.Steady) {generation : ℕ} (succeeded : Bool)
    (hstale : generation ≠ course.version) :
    (course.runEnds generation succeeded).Steady := by
  have hne : generation ≠ course.loop.generation := by
    rw [h.generation]
    exact hstale
  have hsame : course.runEnds generation succeeded = course.settle generation succeeded := by
    rw [runEnds, if_neg (fun hcurrent => hne hcurrent.1)]
  have hrunning : (course.settle generation succeeded).loop.runningGeneration =
      some course.version ↔ course.loop.runningGeneration = some course.version := by
    simp only [settle]
    split
    · rename_i hown
      simp [hown, hstale]
    · rfl
  rw [hsame]
  refine { h with running := hrunning.trans h.running, started := ?_ }
  intro other hother
  simp only [settle] at hother
  split at hother
  · simp at hother
  · exact h.started other hother

/-- The course after a call which had an older version. -/
theorem Steady.ends_stale (h : course.Steady) (hkey : key ∈ course.keys)
    (hstale : key.version ≠ course.version) :
    ((course.endCall key.id).callerReturns key.caller).Steady ∧
      ((course.endCall key.id).callerThrows key.caller).Steady := by
  have hended := h.endCall_stale hkey hstale
  cases h.callers key hkey with
  | inl hrun =>
      rw [hrun]
      exact ⟨hended.runEnds_stale true hstale, hended.runEnds_stale false hstale⟩
  | inr hexplicit =>
      obtain ⟨hcaller, hversion⟩ := hexplicit
      have hstopped : (course.endCall key.id).stopped = true := hversion.resolve_left hstale
      rw [hcaller]
      constructor
      · exact hended
      · rw [callerThrows, if_pos hstopped]
        exact hended

/-- The current call goes and the loop takes note. -/
theorem Steady.endCall_current (h : course.Steady) (hkey : key ∈ course.keys)
    (hcurrent : key.version = course.version) (succeeded ready : Bool)
    (hready : ready = true → course.loop.timer = none) :
    (∀ generation, key.caller = .run generation →
        ({ course.endCall key.id with ready := ready }.settle generation succeeded).Orderly) ∧
      (key.caller = .reconnectSocket →
        { course.endCall key.id with ready := ready }.Orderly) := by
  have hnone : ∀ other ∈ (course.endCall key.id).keys, other.version ≠ course.version := by
    intro other hother hversion
    obtain ⟨hmem, hid⟩ := mem_endCall.mp hother
    exact hid (congrArg CallKey.id (h.alone other hmem key hkey hversion hcurrent))
  have hnorun : ¬∃ other ∈ (course.endCall key.id).keys, other.caller = .run course.version := by
    intro hrun
    obtain ⟨other, hother, hcaller⟩ := hrun
    exact hnone other hother (h.version_of_run (mem_endCall.mp hother).1 hcaller)
  have hstopped : course.stopped = false := by
    by_contra hstopped
    exact (h.stopped (by simpa using hstopped)).2 key hkey hcurrent
  have horderly : ∀ loop : ReconnectLoop, loop.generation = course.loop.generation →
      loop.timer = course.loop.timer → loop.runningGeneration ≠ some course.version →
      (∀ generation, loop.runningGeneration = some generation → generation ≤ course.version) →
      { course.endCall key.id with ready := ready, loop := loop }.Orderly := by
    intro loop hgeneration htimer hrunning hstarted
    exact {
      generation := hgeneration.trans h.generation
      timers := by
        have htimers := h.timers
        rw [← htimer] at htimers
        exact htimers
      distinct := h.distinct.sublist (List.filter_sublist.map _)
      fresh := fun other hother => h.fresh other (mem_endCall.mp hother).1
      versions := fun other hother => h.versions other (mem_endCall.mp hother).1
      callers := fun other hother => h.callers other (mem_endCall.mp hother).1
      alone := fun other hother _ _ hversion => absurd hversion (hnone other hother)
      started := hstarted
      running := iff_of_false hrunning hnorun
      retry := fun _ other hother hversion => absurd hversion (hnone other hother)
      stopped := by
        intro hstop
        simp [endCall, hstopped] at hstop
      ready := fun h' => ⟨hstopped, htimer.trans (hready h'), hnone⟩ }
  constructor
  · intro generation hcaller
    have hgeneration : generation = course.version := by
      cases h.callers key hkey with
      | inl hrun =>
          rw [hrun, hcurrent] at hcaller
          exact (Caller.run.inj hcaller).symm
      | inr hexplicit => simp [hexplicit.1] at hcaller
    apply horderly
    · rfl
    · rfl
    · have hrunning : course.loop.runningGeneration = some course.version :=
        h.running.mpr ⟨key, hkey, by rw [hcaller, hgeneration]⟩
      simp [endCall, hrunning, hgeneration]
    · have hrunning : course.loop.runningGeneration = some course.version :=
        h.running.mpr ⟨key, hkey, by rw [hcaller, hgeneration]⟩
      simp [endCall, hrunning, hgeneration]
  · intro hcaller
    refine horderly course.loop rfl rfl ?_ h.started
    rw [Ne, h.running]
    intro hrun
    obtain ⟨other, hother, hother'⟩ := hrun
    have hsame := h.alone other hother key hkey (h.version_of_run hother hother') hcurrent
    rw [hsame, hcaller] at hother'
    simp at hother'

/-- The current call fails: a retry is scheduled. -/
theorem Steady.throws_current (h : course.Steady) (hkey : key ∈ course.keys)
    (hcurrent : key.version = course.version) :
    ((course.endCall key.id).callerThrows key.caller).Steady := by
  have hstopped : course.stopped = false := by
    by_contra hstopped
    exact (h.stopped (by simpa using hstopped)).2 key hkey hcurrent
  have hready : course.ready = false := by
    by_contra hready
    exact (h.ready (by simpa using hready)).2.2 key hkey hcurrent
  have hended := h.endCall_current hkey hcurrent false course.ready (by simp [hready])
  cases h.callers key hkey with
  | inl hrun =>
      have horderly := hended.1 _ hrun
      have hgeneration : key.version = (course.endCall key.id).loop.generation :=
        hcurrent.trans h.generation.symm
      rw [hrun, callerThrows, runEnds, if_pos ⟨hgeneration, rfl⟩]
      exact horderly.schedule hstopped hready
  | inr hexplicit =>
      have horderly := hended.2 hexplicit.1
      rw [hexplicit.1, callerThrows, if_neg (by simp [endCall, hstopped])]
      exact horderly.schedule hstopped hready

/-- The current call succeeds: its socket is ready. -/
theorem Steady.returns_current (h : course.Steady) (hkey : key ∈ course.keys)
    (hcurrent : key.version = course.version) (htimer : course.loop.timer = none) :
    ({ course.endCall key.id with ready := true }.callerReturns key.caller).Steady := by
  have hended := h.endCall_current hkey hcurrent true true (fun _ => htimer)
  cases h.callers key hkey with
  | inl hrun =>
      rw [hrun, callerReturns, runEnds, if_neg (by simp)]
      refine { hended.1 _ hrun with working := ?_ }
      intro _ hready
      simp [settle] at hready
  | inr hexplicit =>
      rw [hexplicit.1, callerReturns]
      refine { hended.2 hexplicit.1 with working := ?_ }
      intro _ hready
      simp at hready

/-- The ready socket, or the one being opened, is lost. -/
theorem Steady.lost (h : course.Steady) (hstopped : course.stopped = false) :
    ({ course with ready := false }.schedule).Steady := by
  have horderly : { course with ready := false }.Orderly := by
    refine { h.toOrderly with ready := ?_ }
    intro hready
    simp at hready
  exact horderly.schedule hstopped rfl

/-! ### A call begins -/

/-- The timer expires and the attempt of its generation begins. -/
def attempt (timer : RetryTimer) (course : Course) : Course :=
  { course with
    timers := course.timers.filter (·.id ≠ timer.id)
    loop := {
      course.loop with
      timer := none
      runningGeneration := some timer.generation }
    keys := course.keys ++ [⟨course.nextId, .run timer.generation, course.version⟩]
    nextId := course.nextId + 1 }

/-- A new version: what is under way belongs to an older one. -/
def renew (course : Course) : Course :=
  { course with
    version := course.version + 1
    ready := false
    loop := {
      course.loop with
      generation := course.loop.generation + 1
      timer := none
      failures := 0 }
    timers := course.timers.filter fun timer => course.loop.timer ≠ some timer.id }

def begin (key : CallKey) (course : Course) : Course :=
  { course with keys := course.keys ++ [key], nextId := course.nextId + 1 }

/-- A call with the next number keeps the numbers apart. -/
theorem Orderly.distinct_append (h : course.Orderly) (hkey : key.id = course.nextId) :
    ((course.keys ++ [key]).map CallKey.id).Nodup := by
  rw [List.map_append, List.nodup_append]
  refine ⟨h.distinct, by simp, ?_⟩
  intro id hid other hother
  simp only [List.map_cons, List.map_nil, List.mem_singleton] at hother
  obtain ⟨another, hanother, hanotherId⟩ := List.mem_map.mp hid
  have hlt := h.fresh another hanother
  omega

theorem Orderly.timer_of_mem (h : course.Orderly) {timer : RetryTimer}
    (htimer : timer ∈ course.timers) :
    course.timers = [timer] ∧ course.loop.timer = some timer.id ∧
      timer.generation = course.version := by
  cases h.timers with
  | inl hnone => simp [hnone.1] at htimer
  | inr hsome =>
      obtain ⟨own, htimers, hloop, hgeneration⟩ := hsome
      rw [htimers, List.mem_singleton] at htimer
      subst htimer
      exact ⟨htimers, hloop, hgeneration⟩

theorem Steady.attempt (h : course.Steady) {timer : RetryTimer} (htimer : timer ∈ course.timers)
    (hidle : ∀ key ∈ course.keys, key.version ≠ course.version) :
    (course.attempt timer).Steady := by
  obtain ⟨htimers, hloop, hgeneration⟩ := h.timer_of_mem htimer
  have hstopped : course.stopped = false := by
    by_contra hstopped
    have hnone := (h.stopped (by simpa using hstopped)).1
    simp [hloop] at hnone
  have hready : course.ready = false := by
    by_contra hready
    have hnone := (h.ready (by simpa using hready)).2.1
    simp [hloop] at hnone
  have hmem : ∀ key : CallKey, key ∈ (course.attempt timer).keys ↔ key ∈ course.keys ∨
      key = ⟨course.nextId, .run course.version, course.version⟩ := by
    intro key
    simp [Course.attempt, hgeneration]
  exact {
    generation := h.generation
    timers := by
      left
      simp [Course.attempt, htimers]
    distinct := h.distinct_append rfl
    fresh := by
      intro key hkey
      cases (hmem key).mp hkey with
      | inl hold => exact Nat.lt_succ_of_lt (h.fresh key hold)
      | inr hnew => simp [hnew, Course.attempt]
    versions := by
      intro key hkey
      cases (hmem key).mp hkey with
      | inl hold => exact h.versions key hold
      | inr hnew => simp [hnew, Course.attempt]
    callers := by
      intro key hkey
      cases (hmem key).mp hkey with
      | inl hold => exact h.callers key hold
      | inr hnew =>
          left
          simp [hnew]
    alone := by
      intro key hkey other hother hversion hversion'
      cases (hmem key).mp hkey with
      | inl hold => exact absurd hversion (hidle key hold)
      | inr hnew =>
          cases (hmem other).mp hother with
          | inl hold => exact absurd hversion' (hidle other hold)
          | inr hnew' => rw [hnew, hnew']
    started := by
      intro generation hgen
      simp only [Course.attempt, Option.some.injEq] at hgen
      rw [← hgen, hgeneration]
      exact le_refl _
    running := by
      constructor
      · intro _
        exact ⟨_, (hmem _).mpr (Or.inr rfl), rfl⟩
      · intro _
        simp [Course.attempt, hgeneration]
    retry := by
      intro hnone
      simp [Course.attempt] at hnone
    stopped := by
      intro hstop
      simp [Course.attempt, hstopped] at hstop
    ready := by
      intro hready'
      simp [Course.attempt, hready] at hready'
    working := by
      intro _ _
      right
      exact ⟨_, (hmem _).mpr (Or.inr rfl), rfl⟩ }

/-- Nothing under way has the new version. -/
theorem Orderly.renew_older (h : course.Orderly) {key : CallKey} (hkey : key ∈ course.keys) :
    key.version ≠ course.renew.version := by
  have hle := h.versions key hkey
  simp only [renew]
  omega

theorem Orderly.renew_timers (h : course.Orderly) : course.renew.timers = [] := by
  cases h.timers with
  | inl hnone => simp [renew, hnone.1]
  | inr hsome =>
      obtain ⟨timer, htimers, hloop, _⟩ := hsome
      simp [renew, htimers, hloop]

theorem Orderly.renew_idle (h : course.Orderly) :
    course.renew.loop.runningGeneration ≠ some course.renew.version := by
  intro hrun
  have hle := h.started _ hrun
  simp only [renew] at hle
  omega

/-- The callers of what is under way, once it is out of date. -/
theorem Orderly.renew_callers (h : course.Orderly)
    (hexplicit : course.stopped = true ∨ ∀ key ∈ course.keys, key.caller ≠ .reconnectSocket)
    {key : CallKey} (hkey : key ∈ course.keys) :
    key.caller = .run key.version ∨ key.caller = .reconnectSocket ∧ course.stopped = true := by
  cases h.callers key hkey with
  | inl hrun => exact Or.inl hrun
  | inr hcaller =>
      cases hexplicit with
      | inl hstopped => exact Or.inr ⟨hcaller.1, hstopped⟩
      | inr hnone => exact absurd hcaller.1 (hnone key hkey)

/-- `stop` -/
theorem Steady.halt (h : course.Steady) : { course.renew with stopped := true }.Steady where
  generation := congrArg (· + 1) h.generation
  timers := Or.inl ⟨h.renew_timers, rfl⟩
  distinct := h.distinct
  fresh := h.fresh
  versions := fun key hkey => Nat.le_succ_of_le (h.versions key hkey)
  callers := by
    intro key hkey
    cases h.callers key hkey with
    | inl hrun => exact Or.inl hrun
    | inr hcaller => exact Or.inr ⟨hcaller.1, Or.inr rfl⟩
  alone := fun key hkey _ _ hversion => absurd hversion (h.renew_older hkey)
  started := fun generation hgeneration => Nat.le_succ_of_le (h.started generation hgeneration)
  running := by
    refine iff_of_false h.renew_idle ?_
    intro hrun
    obtain ⟨key, hkey, hcaller⟩ := hrun
    cases h.callers key hkey with
    | inl hown =>
        rw [hown] at hcaller
        exact h.renew_older hkey (Caller.run.inj hcaller)
    | inr hexplicit => simp [hexplicit.1] at hcaller
  retry := fun htimer => absurd rfl htimer
  stopped := fun _ => ⟨rfl, fun key hkey => h.renew_older hkey⟩
  ready := by
    intro hready
    simp [renew] at hready
  working := by
    intro hstopped
    simp at hstopped

/-- `reconnectSocket` while the client is not stopped -/
theorem Steady.reopen (h : course.Steady) (hstopped : course.stopped = false)
    (hexplicit : ∀ key ∈ course.keys, key.caller ≠ .reconnectSocket) :
    (course.renew.begin ⟨course.nextId, .reconnectSocket, course.version + 1⟩).Steady := by
  have hmem : ∀ key : CallKey,
      key ∈ (course.renew.begin ⟨course.nextId, .reconnectSocket, course.version + 1⟩).keys ↔
        key ∈ course.keys ∨ key = ⟨course.nextId, .reconnectSocket, course.version + 1⟩ := by
    intro key
    simp [begin, renew]
  exact {
    generation := congrArg (· + 1) h.generation
    timers := Or.inl ⟨h.renew_timers, rfl⟩
    distinct := h.distinct_append rfl
    fresh := by
      intro key hkey
      cases (hmem key).mp hkey with
      | inl hold => exact Nat.lt_succ_of_lt (h.fresh key hold)
      | inr hnew => simp [hnew, begin, renew]
    versions := by
      intro key hkey
      cases (hmem key).mp hkey with
      | inl hold => exact Nat.le_succ_of_le (h.versions key hold)
      | inr hnew => simp [hnew, begin, renew]
    callers := by
      intro key hkey
      cases (hmem key).mp hkey with
      | inl hold =>
          cases h.renew_callers (Or.inr hexplicit) hold with
          | inl hrun => exact Or.inl hrun
          | inr hcaller => exact Or.inr ⟨hcaller.1, Or.inr hcaller.2⟩
      | inr hnew =>
          right
          simp [hnew, begin, renew]
    alone := by
      intro key hkey other hother hversion hversion'
      cases (hmem key).mp hkey with
      | inl hold => exact absurd hversion (h.renew_older hold)
      | inr hnew =>
          cases (hmem other).mp hother with
          | inl hold => exact absurd hversion' (h.renew_older hold)
          | inr hnew' => rw [hnew, hnew']
    started := fun generation hgeneration =>
      Nat.le_succ_of_le (h.started generation hgeneration)
    running := by
      refine iff_of_false h.renew_idle ?_
      intro hrun
      obtain ⟨key, hkey, hcaller⟩ := hrun
      cases (hmem key).mp hkey with
      | inl hold =>
          cases h.callers key hold with
          | inl hown =>
              rw [hown] at hcaller
              exact h.renew_older hold (Caller.run.inj hcaller)
          | inr hreconnect => simp [hreconnect.1] at hcaller
      | inr hnew => simp [hnew] at hcaller
    retry := fun htimer => absurd rfl htimer
    stopped := by
      intro hstop
      simp [begin, renew, hstopped] at hstop
    ready := by
      intro hready
      simp [begin, renew] at hready
    working := fun _ _ => Or.inr ⟨_, (hmem _).mpr (Or.inr rfl), rfl⟩ }

/-- `reconnectSocket` once the client is stopped -/
theorem Steady.renew_stopped (h : course.Steady) (hstopped : course.stopped = true) :
    { course.renew with nextId := course.nextId + 1 }.Steady := by
  have hhalt := h.halt.later
  have hsame : ({ course.renew with stopped := true } : Course) = course.renew := by
    simp only [renew, ← hstopped]
  rw [hsame] at hhalt
  exact hhalt

end Course

end SerialPlatform.Desktop
