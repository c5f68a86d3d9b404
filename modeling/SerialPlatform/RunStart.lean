import SerialPlatform.AgentSession
import SerialPlatform.JsonText

/-!
# Starting a Run

`start_run_with_policy` asks the daemon for a Run and polls the same request until the Human
has decided.  Each pass of the loop is a turn: the readings of the clock, what became of the
caller and what the daemon answers to the requests of the turn are given, and the Session
computes the rest.
-/

namespace SerialPlatform.Agent

structure RunStartPolicy where
  maxWait : ℕ
  cleanupMargin : ℕ
  pollInterval : ℕ
  expiryGrace : ℕ

structure StartArgs where
  port : String
  label : String
  metadata : JsonMap
  requestId : Uuid
  runToken : Uuid
  /-- `new_run_handle`, repeated until no owned Run has the handle -/
  runHandle : Except String String
  policy : RunStartPolicy

structure StartedRun where
  approvalId : Uuid
  run : RunInfo
  runHandle : String

/-- One pass of the loop, as far as it is not the Session's own doing. -/
structure Turn where
  /-- the time up to the checks at the head of the loop -/
  waited : ℕ
  callerGone : Bool
  cancel : Answer
  /-- the time from the checks to the poll -/
  prepared : ℕ
  /-- the greeting of the daemon, where the Session has no socket -/
  connect : Except String Actor
  poll : Answer
  callerGoneAtGrant : Bool
  release : Answer
  wallNow : ℕ
  idleRelease : String → Answer
  renewal : String → Answer

structure Loop where
  pendingApproval : Option PendingRunStartApproval
  approvalDeadline : ℕ
  nextRenewal : ℕ

inductive Turned
  | returned (result : Except String StartedRun) (w : World)
  | again (loop : Loop) (w : World)

def runStartDeadline (now wallNow : ℕ) (expiresWallTimeNs : ℤ) (maxWait grace : ℕ) : ℕ :=
  let remaining := min (expiresWallTimeNs.toNat - wallNow) (2 ^ 64 - 1)
  now + min remaining maxWait + grace

/-- The daemon's approval is the one which the call asked for. -/
def matchesRequest (args : StartArgs) (actor : Actor) (approval : PendingRunStartApproval) : Bool :=
  approval.id = args.requestId && approval.port = args.port &&
    (approval.label = args.label && approval.metadata = args.metadata &&
      approval.controlTtlMs = leaseTtlMs) &&
    (approval.requester.id = actor.id && approval.requester.kind = .agent) &&
    approval.requiredApprover.kind = .human

namespace World

def connect (greeting : Except String Actor) (w : World) : Except String Unit × World :=
  match w.session.connection with
  | some _ => (.ok (), w)
  | none =>
      match greeting with
      | .error error => (.error error, w)
      | .ok actor =>
          (.ok (), { w with session :=
            { w.session with connection := some ⟨actor, .empty, .empty⟩ } })

/-- The poll: its connection and its request. -/
def poll (t : Turn) (timeout : ℕ) (w : World) : Except String CommandResult × World :=
  match w.connect t.connect with
  | (.error error, w) => (.error error, w)
  | (.ok (), w) => w.callWithTimeout timeout t.poll

def cancelRunStart (t : Turn) (approvalId : Uuid) (w : World) : Except String Unit × World :=
  let approval := uuidText approvalId
  match w.call t.cancel with
  | (.ok (.runStartCancelled cancelled), w) =>
      if cancelled = approvalId then (.ok (), { w with side := .none })
      else
        (.error (s!"seriald did not confirm cancellation of run_start approval {approval}; " ++
          "the connection was closed to clear pending state"), w.disconnect)
  | (.ok _, w) =>
      (.error (s!"seriald did not confirm cancellation of run_start approval {approval}; " ++
        "the connection was closed to clear pending state"), w.disconnect)
  | (.error _, w) =>
      (.error (s!"failed to cancel run_start approval {approval}; the connection was closed " ++
        "to clear pending state"), w.disconnect)

/-- The local end of the wait: cancels what is pending and fails with `message`. -/
def giveUp (t : Turn) (approvalId : Uuid) (message : String) (w : World) : Turned :=
  match w.cancelRunStart t approvalId with
  | (.error error, w) => .returned (.error error) w
  | (.ok (), w) => .returned (.error message) w

def granted (args : StartArgs) (runHandle : String) (t : Turn) (approvalId : Uuid)
    (lease : ControlLease) (run : RunInfo) (w : World) : Turned :=
  if approvalId ≠ args.requestId then
    .returned (.error ("seriald returned a mismatched run_start grant; the connection was " ++
      "closed so no Run remains owned by this MCP and no bytes were written")) w.disconnect
  else
    let owned := OwnedRun.newWithHandle run.id args.runToken runHandle w.now
    let w := { w with
      session := (w.session.insertLease args.port lease).insertRun args.port owned
      side := .running }
    if t.callerGoneAtGrant then
      let released := w.bestEffortRelease args.port t.release
      let side : PortSide :=
        match t.release.result with
        | .ok .controlReleased => .none
        | .ok _ => released.side
        | .error _ => .none
      .returned (.error ("run_start caller disconnected as approval was granted; the new Run " ++
        "was immediately released, no Run remains owned by this MCP, and no bytes were " ++
        "written")) { released with side := side }
    else .returned (.ok ⟨approvalId, run, runHandle⟩) w

/-- After a pending answer: the renewal of the other Runs and the sleep. -/
def rest (args : StartArgs) (t : Turn) (loop : Loop) (w : World) : Turned :=
  if loop.nextRenewal ≤ w.now then
    let renewed := w.renewAll t.idleRelease t.renewal
    if renewed.session.connection.isNone then
      .returned (.error ("the Agent connection closed while run_start was waiting for Human " ++
        "approval; pending state was cleared, no Run remains owned by this MCP, and no bytes " ++
        "were written")) renewed
    else
      .again { loop with nextRenewal := renewed.now + renewInterval }
        (renewed.wait args.policy.pollInterval)
  else .again loop (w.wait args.policy.pollInterval)

def pending (args : StartArgs) (hardApprovalDeadline : ℕ) (t : Turn) (loop : Loop)
    (approval : PendingRunStartApproval) (w : World) : Turned :=
  if !(w.session.connection.any fun connection =>
      matchesRequest args connection.actor approval) then
    .returned (.error ("seriald returned a mismatched run_start approval identity or request " ++
      "body; the connection was closed so the pending request is cancelled; no Run was " ++
      "created and no bytes were written")) w.disconnect
  else if loop.pendingApproval.any fun previous => previous ≠ approval then
    .returned (.error ("seriald changed the run_start approval while polling; the connection " ++
      "was closed so no pending request remains; no Run was created and no bytes were " ++
      "written")) w.disconnect
  else
    let deadline := runStartDeadline w.now t.wallNow approval.expiresWallTimeNs
      args.policy.maxWait args.policy.expiryGrace
    rest args t { loop with
      pendingApproval := some approval
      approvalDeadline := min hardApprovalDeadline deadline } { w with side := .waiting }

def settle (args : StartArgs) (runHandle : String) (hardApprovalDeadline : ℕ) (t : Turn)
    (loop : Loop) : Except String CommandResult × World → Turned
  | (.ok (.runStartGranted approvalId lease run), w) =>
      w.granted args runHandle t approvalId lease run
  | (.ok (.runStartPending approval), w) => w.pending args hardApprovalDeadline t loop approval
  | (.ok (.runStartDenied approvalId), w) =>
      let approval := uuidText approvalId
      .returned (.error (s!"Human denied run_start approval {approval}; no Run was created and " ++
        "no bytes were written")) { w with side := .none }
  | (.ok (.runStartTimedOut approvalId), w) =>
      let approval := uuidText approvalId
      .returned (.error (s!"run_start approval {approval} expired without a Human decision; no " ++
        "Run was created and no bytes were written")) { w with side := .none }
  | (.ok (.runStartCancelled approvalId), w) =>
      let approval := uuidText approvalId
      .returned (.error (s!"run_start approval {approval} was cancelled; no Run was created and " ++
        "no bytes were written")) { w with side := .none }
  | (.ok _, w) =>
      .returned (.error ("unexpected run_start result; the connection was closed to cancel any " ++
        "pending approval; no Run was accepted and no bytes were written")) w.disconnect
  | (.error _, w) =>
      .returned (.error ("run_start approval polling failed; the Agent connection was closed " ++
        "to cancel the pending request; no Run remains owned by this MCP and no bytes were " ++
        "written")) w.disconnect

def pollTimeout (loop : Loop) (w : World) : ℕ :=
  min (loop.approvalDeadline - w.now) defaultRpcTimeout

/-- One pass of the loop. -/
def turn (args : StartArgs) (runHandle : String) (hardApprovalDeadline : ℕ) (t : Turn)
    (loop : Loop) (w : World) : Turned :=
  let w := w.wait t.waited
  if t.callerGone then
    let message := "run_start caller disconnected; the pending approval was cancelled, no Run " ++
      "remains owned by this MCP, and no bytes were written"
    match loop.pendingApproval with
    | some approval => w.giveUp t approval.id message
    | none => .returned (.error message) w
  else if loop.approvalDeadline ≤ w.now then
    match loop.pendingApproval with
    | some approval =>
        let id := uuidText approval.id
        w.giveUp t approval.id (s!"run_start approval {id} timed out locally and was cancelled; " ++
          "no Run was created and no bytes were written")
    | none =>
        .returned (.error ("run_start exceeded its local approval deadline before seriald " ++
          "returned a pending approval identity; no Run was created and no bytes were written")) w
  else
    let w := w.wait t.prepared
    if pollTimeout loop w = 0 then .again loop w
    else settle args runHandle hardApprovalDeadline t loop (w.poll t (pollTimeout loop w))

/-- The loop over the turns: `none` while the call has not returned. -/
def runTurns (args : StartArgs) (runHandle : String) (hardApprovalDeadline : ℕ) :
    List Turn → Loop → World → Option (Except String StartedRun × World)
  | [], _, _ => none
  | t :: ts, loop, w =>
      match turn args runHandle hardApprovalDeadline t loop w with
      | .returned result w => some (result, w)
      | .again loop w => runTurns args runHandle hardApprovalDeadline ts loop w

/-- `hard_approval_deadline`. -/
def hardApprovalDeadline (policy : RunStartPolicy) (now : ℕ) : ℕ :=
  now + policy.maxWait - min policy.cleanupMargin policy.maxWait

def firstLoop (policy : RunStartPolicy) (now : ℕ) : Loop :=
  ⟨none, hardApprovalDeadline policy now, now + renewInterval⟩

/-- `start_run_with_policy`. -/
def startRun (args : StartArgs) (turns : List Turn) (w : World) :
    Option (Except String StartedRun × World) :=
  match w.session.ownedRun args.port with
  | some run =>
      let id := uuidText run.id
      let port := args.port
      some (.error s!"serial-mcp already owns active Run {id} on port \"{port}\"", w)
  | none =>
      match args.runHandle with
      | .error error => some (.error error, w)
      | .ok runHandle =>
          runTurns args runHandle (hardApprovalDeadline args.policy w.now) turns
            (firstLoop args.policy w.now) w

end World

end SerialPlatform.Agent
