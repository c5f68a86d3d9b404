import SerialPlatform.CommandBoundary
import SerialPlatform.JsonText

/-!
# One step of a command sequence

A step attaches its capture, hands its bytes to the Session, collects what the device
answers and has the daemon record the capture.  What the daemon, the capture socket and the
renderer answer is given with the step; how the tool reads the answers is computed.
-/

namespace SerialPlatform.Command

/-! ## What the Session makes of a write -/

/-- `DaemonRequestError`. -/
structure DaemonRequestError where
  code : ErrorCode
  retryable : Bool
  message : String

/-- Why a call has no result. -/
inductive CallError
  | daemon (error : DaemonRequestError)
  /-- the call ended before the request was handed to the socket -/
  | unsent (message : String)
  /-- the request may have left, and no answer to it was read -/
  | lost (message : String)

inductive CommandReply
  | writeAccepted (eventSeq : ℕ)
  | other (debug : String)

/-- The concrete types of an `anyhow::Error` which the tools look for. -/
inductive ErrorMark
  | plain
  | sequenceBoundaryRejected
  | userCommandUsed
  | writeOutcomeUncertain
  | contextChanged
  deriving DecidableEq

structure ToolError where
  mark : ErrorMark
  message : String

def startsWith (text start : String) : Bool := start.toList.isPrefixOf text.toList

def contains (text needle : String) : Bool :=
  text.toList.tails.any needle.toList.isPrefixOf

namespace DaemonRequestError

def isSequenceBoundaryRejection (error : DaemonRequestError) : Bool :=
  error.code = .sequenceBoundaryChanged

def isUserReadRequired (error : DaemonRequestError) : Bool := error.code = .userReadRequired

def reportsWriteOutcomeUncertain (error : DaemonRequestError) : Bool :=
  error.code = .writeOutcomeUncertain

def isControlLossRejection (error : DaemonRequestError) : Bool :=
  error.code = .controlRequired || error.code = .staleFence

def isExpectedRunRejection (error : DaemonRequestError) : Bool :=
  error.code = .conflict && startsWith error.message "serial write expected active Run " &&
    contains error.message "(no bytes were written)"

def isDefinitePrewriteRejection (error : DaemonRequestError) : Bool :=
  error.code = .controlRequired || error.code = .staleFence ||
    error.code = .sequenceBoundaryChanged ||
    (contains error.message "(no bytes were written)" &&
      (error.code = .badRequest &&
          startsWith error.message "serial write pacing requires an estimated " ||
        error.code = .conflict &&
          (startsWith error.message "control lease has only " ||
            startsWith error.message "serial write expected active Run ")))

/-- The Session tells from the error that no bytes reached the port. -/
def excludesWrite (error : DaemonRequestError) : Bool :=
  error.isUserReadRequired || error.isSequenceBoundaryRejection ||
    error.isExpectedRunRejection || error.isControlLossRejection ||
    error.isDefinitePrewriteRejection

end DaemonRequestError

/-- `{code:?}`. -/
def ErrorCode.debug : ErrorCode → String
  | .badRequest => "BadRequest"
  | .notFound => "NotFound"
  | .conflict => "Conflict"
  | .controlRequired => "ControlRequired"
  | .staleFence => "StaleFence"
  | .portOffline => "PortOffline"
  | .cursorAhead => "CursorAhead"
  | .sequenceBoundaryChanged => "SequenceBoundaryChanged"
  | .userReadRequired => "UserReadRequired"
  | .writeOutcomeUncertain => "WriteOutcomeUncertain"
  | .resourceExhausted => "ResourceExhausted"
  | .idempotencyExpired => "IdempotencyExpired"
  | .configRevisionMismatch => "ConfigRevisionMismatch"
  | .profileChangeBusy => "ProfileChangeBusy"
  | .portNotFound => "PortNotFound"
  | .portBusy => "PortBusy"
  | .portAccessDenied => "PortAccessDenied"
  | .portIo => "PortIo"
  | .breakUnsupported => "BreakUnsupported"
  | .regexInvalid => "RegexInvalid"
  | .queryBudgetExceeded => "QueryBudgetExceeded"
  | .unavailable => "Unavailable"
  | .internal => "Internal"

def CallError.display : CallError → String
  | .daemon error =>
      let code := ErrorCode.debug error.code
      let retryable := error.retryable
      let message := error.message
      s!"seriald {code} (retryable={retryable}): {message}"
  | .unsent message => message
  | .lost message => message

/-- `Session::write` after the renewal, with the answer of the daemon. -/
def readWriteReply (requestId operationId runId : Uuid) :
    Except CallError CommandReply → Except ToolError ℕ
  | .ok (.writeAccepted eventSeq) => .ok eventSeq
  | .ok (.other debug) => .error ⟨.plain, s!"unexpected write result: {debug}"⟩
  | .error failure =>
      let request := uuidText requestId
      let operation := uuidText operationId
      let run := uuidText runId
      let text := failure.display
      match failure with
      | .daemon error =>
          if error.isUserReadRequired then
            .error ⟨.userCommandUsed,
              "a Human command changed this Run's serial context; read the live timeline " ++
              "through that command before another physical action; no bytes were written: " ++
              text⟩
          else if error.isSequenceBoundaryRejection then
            .error ⟨.sequenceBoundaryRejected,
              "command sequence boundary changed before the next write; no bytes were " ++
              s!"written: {text}"⟩
          else if error.reportsWriteOutcomeUncertain then
            .error ⟨.writeOutcomeUncertain,
              s!"seriald could not confirm the write outcome after request {request} " ++
              s!"(operation {operation}); bytes or another physical effect may have reached " ++
              "the device. Do not retry automatically; inspect the TX/control timeline and " ++
              s!"current device state first: {text}"⟩
          else if error.isExpectedRunRejection then
            .error ⟨.plain,
              s!"seriald rejected write request {request} (operation {operation}) because the " ++
              "expected Run boundary is no longer valid; no bytes reached the serial port. " ++
              s!"Start a new Run before retrying: {text}"⟩
          else if error.isControlLossRejection then
            .error ⟨.plain,
              s!"human_takeover_or_control_revoked: serial control for Run {run} was revoked " ++
              s!"before write {request} reached the port; taken_over_by=unknown; " ++
              s!"run_id={run}; no_bytes_written=true; start a new Run only after the current " ++
              "owner releases control and the DUT model/state is reconfirmed: " ++ text⟩
          else if error.isDefinitePrewriteRejection then
            .error ⟨.plain,
              s!"seriald rejected write request {request} (operation {operation}) before any " ++
              "bytes reached the serial port; it is safe to retry after correcting the pacing " ++
              s!"or starting/restoring the expected Run and control lease: {text}"⟩
          else
            .error ⟨.plain,
              s!"write outcome is uncertain after request {request} (operation {operation}); " ++
              s!"inspect the TX timeline before retrying: {text}"⟩
      | _ =>
          .error ⟨.plain,
            s!"write outcome is uncertain after request {request} (operation {operation}); " ++
            s!"inspect the TX timeline before retrying: {text}"⟩

/-- Bytes of the step may have reached the port: the request may have left the Session, and
the answer does not exclude it. -/
def mayHaveWritten : Except CallError CommandReply → Bool
  | .ok _ => true
  | .error (.unsent _) => false
  | .error (.lost _) => true
  | .error (.daemon error) => !error.excludesWrite

/-! ## Control that was lost -/

structure RunAbortDiagnosis where
  reason : String
  takenOverBy : Option Actor

def errorIndicatesRunOrControlLoss (error : ToolError) : Bool :=
  ["human_takeover_or_control_revoked", "ControlRequired", "StaleFence",
    "expected Run boundary is no longer valid", "does not own an active Run",
    "lost the control lease", "control renewal failed", "Run boundary is no longer valid",
    "can no longer be trusted"].any (contains error.message)

/-- `debug` is the `{:?}` of a text. -/
def formatRunAbortError (debug : String → String) (port : String) (runId : Uuid)
    (diagnosis : RunAbortDiagnosis) (noBytesWritten : Bool) : String :=
  let owner :=
    match diagnosis.takenOverBy with
    | some actor => actor.label ++ " (" ++ actor.id ++ ")"
    | none => "unknown"
  let code := if diagnosis.reason = "human takeover" then "human_takeover" else "run_aborted"
  let run := uuidText runId
  let portText := debug port
  let reason := debug diagnosis.reason
  let ownerText := debug owner
  s!"{code}: port {portText} Run {run} was aborted; reason={reason}; " ++
    s!"taken_over_by={ownerText}; run_id={run}; no_bytes_written={noBytesWritten}; start a new " ++
    "Run only after the current owner releases control and the DUT model/state is reconfirmed"

/-- `diagnosis` is what the timeline says about the Run. -/
def runAbortError (debug : String → String) (port : String) (runId : Uuid)
    (diagnosis : Option RunAbortDiagnosis) (observedReason : String) (noBytesWritten : Bool) :
    ToolError :=
  ⟨.plain, formatRunAbortError debug port runId (diagnosis.getD ⟨observedReason, none⟩)
    noBytesWritten⟩

def sessionRunError (debug : String → String) (port : String) (runId : Uuid)
    (diagnosis : Option RunAbortDiagnosis) (error : ToolError) (noBytesWritten : Bool) :
    ToolError :=
  if errorIndicatesRunOrControlLoss error then
    match diagnosis with
    | some diagnosis => ⟨.plain, formatRunAbortError debug port runId diagnosis noBytesWritten⟩
    | none =>
        let portText := debug port
        let run := uuidText runId
        let message := error.message
        ⟨.plain,
          s!"human_takeover_or_control_revoked: port {portText} Run {run} lost fenced serial " ++
          s!"control; taken_over_by=unknown; run_id={run}; no_bytes_written={noBytesWritten}; " ++
          "start a new Run only after the current owner releases control and the DUT " ++
          s!"model/state is reconfirmed: {message}"⟩
  else error

/-! ## What the capture saw -/

inductive Completion
  | pattern (value : String)
  | prompt (value : String)
  | regex (value : String)
  | quiet
  | signal (value : String)
  | runAborted (runId : Uuid) (reason : String)
  | timeout
  | disconnected (reason : String)

structure CaptureResult where
  events : List TimelineEvent
  truncated : Bool
  gaps : List String
  completion : Completion
  throughSeq : Option ℕ
  commandBoundary : Option Capture.CommandBoundaryResult

def completionKind : Completion → String
  | .pattern _ => "literal"
  | .prompt _ => "prompt"
  | .regex _ => "regex"
  | .quiet => "quiet"
  | .signal _ => "signal"
  | .runAborted _ _ => "run_aborted"
  | .timeout => "timeout"
  | .disconnected _ => "disconnected"

def commandConfidence (completion : Completion)
    (truncated gap interfered echoMissing echoAmbiguous : Bool) (rxEventCount : ℕ) : String :=
  match gap, completion with
  | true, _ => "unreliable"
  | _, .disconnected _ => "unreliable"
  | _, .runAborted _ _ => "unreliable"
  | _, completion =>
      if truncated then "partial"
      else if interfered then "interfered"
      else
        match completion with
        | .timeout => "incomplete"
        | .quiet => "low"
        | _ =>
            if echoMissing || echoAmbiguous then "medium"
            else if rxEventCount = 0 then "low" else "high"

/-! ## The step -/

structure PreparedCommandStep where
  bytes : Bytes
  description : String

/-- What of `SlotSnapshot` the tool reads. -/
structure SlotSnapshot where
  port : String
  daemonEpoch : Uuid
  generation : ℕ
  headSeq : ℕ
  txOffset : ℕ
  effectiveWriteEol : Option String
  sessionState : SessionState
  stateReason : Option String
  activeRun : Option Uuid

/-- The write which a step hands to the Session. -/
structure WriteRequest where
  data : Bytes
  operationId : Uuid
  description : String
  commandSequence : CommandSequenceAuditContext
  sequencePrecondition : SequenceWritePrecondition

structure RenderedText where
  text : String
  textTruncated : Bool

/-- What the rest of the system answers to one step. -/
structure StepAnswers where
  operationId : Uuid
  requestId : Uuid
  attach : Except String Unit
  /-- `renew_owned_run_control` -/
  renewal : Except ToolError Unit
  reply : Except CallError CommandReply
  diagnosis : Option RunAbortDiagnosis
  capture : CaptureResult
  rendered : RenderedText
  record : Except String CommandCaptureCompleted

structure StepOutput where
  write : String
  capture : String
  confidence : String
  text : String
  truncated : Bool
  gap : Bool
  interfered : Bool
  runId : Uuid
  operationId : Uuid
  eventSeq : ℕ
  description : String
  cursor : Cursor
  echoRetained : Bool

structure ExecutedCommandStep where
  output : StepOutput
  completion : Completion
  cursor : Cursor
  truncated : Bool
  gap : Bool
  interfered : Bool
  echoMissing : Bool
  echoAmbiguous : Bool
  noRx : Bool

structure CommandStepFailure where
  phase : String
  error : ToolError

/-- The Session's write: the renewal of the lease and the request itself. -/
def sessionWrite (answers : StepAnswers) (runId : Uuid) : Except ToolError ℕ :=
  match answers.renewal with
  | .error error => .error error
  | .ok () => readWriteReply answers.requestId answers.operationId runId answers.reply

def captureStep (answers : StepAnswers) (slot : SlotSnapshot) (runId : Uuid)
    (prepared : PreparedCommandStep) (eventSeq : ℕ) :
    Except CommandStepFailure ExecutedCommandStep :=
  let result := answers.capture
  match result.commandBoundary with
  | none => .error ⟨"capture", .plain, "command capture lost its authoritative write boundary"⟩
  | some boundary =>
      let echoMissing := boundary.echoRequired && !boundary.echoObserved
      let echoAmbiguous := boundary.ambiguousEchoRetained
      let rxEventCount := (result.events.filter fun event => event.direction = .rx).length
      let gap := !result.gaps.isEmpty
      let truncated := result.truncated || answers.rendered.textTruncated
      let lastSeq := result.throughSeq.getD eventSeq
      match answers.record with
      | .error error =>
          .error ⟨"record_capture", .plain,
            s!"the command write was confirmed at event {eventSeq}, but seriald did not persist " ++
            "its completed capture boundary; do not blindly resend the command. Inspect the " ++
            "TX/RX timeline and retry only the evidence-recording workflow: " ++ error⟩
      | .ok _ =>
          .ok
            { output :=
                { write := if echoMissing || echoAmbiguous then "uncertain" else "confirmed"
                  capture := completionKind result.completion
                  confidence := commandConfidence result.completion truncated gap
                    boundary.interfered echoMissing echoAmbiguous rxEventCount
                  text := answers.rendered.text
                  truncated := truncated
                  gap := gap
                  interfered := boundary.interfered
                  runId := runId
                  operationId := answers.operationId
                  eventSeq := eventSeq
                  description := prepared.description
                  cursor := ⟨slot.daemonEpoch, lastSeq⟩
                  echoRetained := echoAmbiguous }
              completion := result.completion
              cursor := ⟨slot.daemonEpoch, lastSeq⟩
              truncated := truncated
              gap := gap
              interfered := boundary.interfered
              echoMissing := echoMissing
              echoAmbiguous := echoAmbiguous
              noRx := rxEventCount = 0 && !boundary.echoObserved }

/-- What `execute_command_step` returns. -/
def commandStepOutcome (debug : String → String) (answers : StepAnswers) (slot : SlotSnapshot)
    (runId : Uuid) (prepared : PreparedCommandStep) :
    Except CommandStepFailure ExecutedCommandStep :=
  match answers.attach with
  | .error error => .error ⟨"attach", .plain, error⟩
  | .ok () =>
      match sessionWrite answers runId with
      | .error error =>
          .error ⟨"write", sessionRunError debug slot.port runId answers.diagnosis error true⟩
      | .ok eventSeq => captureStep answers slot runId prepared eventSeq

/-- The write which `execute_command_step` hands to the Session. -/
def handedWrite (answers : StepAnswers) (prepared : PreparedCommandStep)
    (sequence : CommandSequenceAuditContext) (precondition : SequenceWritePrecondition) :
    Option WriteRequest :=
  match answers.attach with
  | .error _ => none
  | .ok () =>
      some ⟨prepared.bytes, answers.operationId, prepared.description, sequence, precondition⟩

/-- Bytes of the step may have reached the port. -/
def StepAnswers.mayHaveWritten (answers : StepAnswers) : Bool :=
  match answers.attach, answers.renewal with
  | .ok (), .ok () => Command.mayHaveWritten answers.reply
  | _, _ => false

/-- The write was accepted, its capture kept its boundary and the daemon recorded it. -/
def StepAnswers.recorded (answers : StepAnswers) : Bool :=
  match answers.reply, answers.capture.commandBoundary, answers.record with
  | .ok (.writeAccepted _), some _, .ok _ => true
  | _, _, _ => false

/-! ## The stop checks -/

structure SequenceStop where
  code : String
  message : String

def commandSequenceStop (executed : ExecutedCommandStep) (requiresNextStep : Bool) :
    Option SequenceStop :=
  match executed.completion with
  | .runAborted _ _ => some ⟨"run_aborted", "the active Run was aborted during this step"⟩
  | .timeout =>
      some ⟨"timeout", "the requested completion boundary was not observed before timeout"⟩
  | .disconnected reason =>
      some ⟨"disconnected", s!"capture disconnected before completion: {reason}"⟩
  | completion =>
      if executed.gap then some ⟨"rx_gap", "RX evidence has a gap"⟩
      else if executed.truncated then
        some ⟨"capture_truncated", "capture evidence was truncated"⟩
      else if executed.interfered then
        some ⟨"interfered", "another actor wrote during this step"⟩
      else if executed.echoMissing || executed.echoAmbiguous then
        some ⟨"echo_uncertain",
          if executed.echoAmbiguous then
            "the command echo used an ambiguous plain-CRLF wrap; raw RX was retained"
          else "the configured command echo was not observed completely"⟩
      else if executed.noRx then some ⟨"no_rx", "no post-write RX was observed"⟩
      else
        match requiresNextStep, completion with
        | false, _ => none
        | true, .pattern _ => none
        | true, .regex _ => none
        | true, _ =>
            some ⟨"boundary_not_matched",
              "the explicit intermediate expect/regex boundary was not matched"⟩

end SerialPlatform.Command
