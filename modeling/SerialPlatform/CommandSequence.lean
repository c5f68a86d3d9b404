import SerialPlatform.CommandStep
import SerialPlatform.ExceptBind
import SerialPlatform.TextFields

/-!
# Command sequences

The tool checks the whole request, plans the bytes of every step and then runs the steps in
order.  Its result counts the steps which it sent and the steps which it completed; an Agent
reads from the two counts what it may send again.
-/

namespace SerialPlatform.Command

def maxWriteBytes : ℕ := 4096
def maxCommandSequenceSteps : ℕ := 8
def maxCommandSequenceTotalWriteBytes : ℕ := maxCommandSequenceSteps * maxWriteBytes
def maxCommandSequenceTimeoutSeconds : ℕ := 300
def maxCommandDescriptionBytes : ℕ := 256
def maxCommandCaptureDetailBytes : ℕ := 4096

/-! ## The request -/

structure CommandSequenceStepArgs where
  command : String
  description : String
  expect : Option String
  regex : Option String
  timeoutSeconds : Option ℕ

structure CommandSequenceArgs where
  runHandle : String
  description : String
  steps : List CommandSequenceStepArgs

/-- What of `StatusResponse` the tool reads. -/
structure StatusResponse where
  sequenceWritePreconditionSupported : Bool
  serialContextPreconditionSupported : Bool
  ports : List SlotSnapshot

structure AuthorizedRunUse where
  port : String
  runId : Uuid

/-- The libraries which the tool calls and the answers of the rest of the system. -/
structure World where
  /-- the `{:?}` of a text -/
  debug : String → String
  debugState : SessionState → String
  /-- `Regex::new`, and whether the regex matches the empty text -/
  regex : String → Except String Bool
  sequenceId : Uuid
  authorizeRunUse : Except String AuthorizedRunUse
  status : Except String StatusResponse
  /-- `ensure_serial_context_unchanged` -/
  serialContext : Except ToolError Unit
  step : ℕ → StepAnswers
  contextChanged : ToolError
  runOwnershipRetained : Except String Bool

def fail {α : Type} (message : String) : Except ToolError α := .error ⟨.plain, message⟩

/-- `with_context` shows the outer text. -/
def withContext {α : Type} (message : String) : Except ToolError α → Except ToolError α
  | .ok value => .ok value
  | .error _ => fail message

def validateCommandDescription (description : String) : Except ToolError Unit :=
  if description.isEmpty then fail "description must not be empty"
  else if description.toList.head?.any isWhitespaceChar ||
      description.toList.getLast?.any isWhitespaceChar then
    fail "description must be trimmed"
  else if maxCommandDescriptionBytes < description.utf8ByteSize then
    fail s!"description must not exceed {maxCommandDescriptionBytes} UTF-8 bytes"
  else if description.toList.any isControlChar then
    fail "description must not contain control characters"
  else .ok ()

def compileRegex (world : World) (value field : String) : Except ToolError Bool :=
  if value.isEmpty then fail s!"{field} must not be empty"
  else if maxCommandCaptureDetailBytes < value.utf8ByteSize then
    fail s!"{field} must not exceed {maxCommandCaptureDetailBytes} UTF-8 bytes"
  else
    match world.regex value with
    | .ok matchesEmpty => .ok matchesEmpty
    | .error _ => fail s!"{field} is not a valid regex"

/-- The boundary of one step, at its place among `count` steps. -/
def validateStepBoundary (world : World) (count index : ℕ) (step : CommandSequenceStepArgs) :
    Except ToolError Unit :=
  match step.expect, step.regex with
  | some _, some _ =>
      fail s!"steps[{index}].expect and steps[{index}].regex are alternatives; choose one"
  | none, none =>
      if index + 1 < count then
        fail s!"steps[{index}] is not final and must provide exactly one of expect or regex"
      else .ok ()
  | some expect, none =>
      if expect.isEmpty then fail s!"steps[{index}].expect must not be empty"
      else if maxCommandCaptureDetailBytes < expect.utf8ByteSize then
        fail (s!"steps[{index}].expect must not exceed {maxCommandCaptureDetailBytes} " ++
          "UTF-8 bytes")
      else .ok ()
  | none, some pattern =>
      match compileRegex world pattern s!"steps[{index}].regex" with
      | .error error => .error error
      | .ok true => fail s!"steps[{index}].regex must not match an empty serial stream"
      | .ok false => .ok ()

/-- The checks of the steps from `index` on; the result is the total timeout. -/
def validateSteps (world : World) (count : ℕ) :
    ℕ → List CommandSequenceStepArgs → ℕ → Except ToolError ℕ
  | _, [], total => .ok total
  | index, step :: steps, total => do
      withContext s!"steps[{index}].description is invalid"
        (validateCommandDescription step.description)
      if maxWriteBytes < step.command.utf8ByteSize then
        fail s!"steps[{index}].command exceeds {maxWriteBytes} UTF-8 bytes before adding EOL"
      validateStepBoundary world count index step
      let timeout := step.timeoutSeconds.getD 10
      if timeout < 1 || 120 < timeout then
        fail s!"steps[{index}].timeout_seconds must be between 1 and 120"
      if 2 ^ 64 ≤ total + timeout then fail "command_sequence timeout total overflowed"
      validateSteps world count (index + 1) steps (total + timeout)

def validateCommandSequenceShape (world : World) (steps : List CommandSequenceStepArgs) :
    Except ToolError Unit :=
  if steps.isEmpty || maxCommandSequenceSteps < steps.length then
    fail s!"steps must contain between 1 and {maxCommandSequenceSteps} commands"
  else
    match validateSteps world steps.length 0 steps 0 with
    | .error error => .error error
    | .ok total =>
        if maxCommandSequenceTimeoutSeconds < total then
          fail (s!"steps request {total}s of capture time; command_sequence allows at most " ++
            s!"{maxCommandSequenceTimeoutSeconds}s")
        else .ok ()

/-! ## The plan -/

def composeWriteBytes (command defaultEol : String) : Except ToolError Bytes :=
  if command.isEmpty && defaultEol.isEmpty then
    fail "command and EOL are both empty; nothing would be sent"
  else
    let bytes := command.toUTF8.data.toList ++ defaultEol.toUTF8.data.toList
    if maxWriteBytes < bytes.length then
      fail s!"command plus EOL exceeds {maxWriteBytes} bytes"
    else .ok bytes

/-- `requested_completion`, as far as it can fail. -/
def requestedCompletion (world : World) : Option String → Option String → Except ToolError Unit
  | some _, some _ => fail "expect and regex are alternative completion boundaries; choose one"
  | _, some regex =>
      match compileRegex world regex "regex" with
      | .error error => .error error
      | .ok _ => .ok ()
  | some expect, none =>
      if expect.isEmpty then fail "expect must not be empty"
      else if maxCommandCaptureDetailBytes < expect.utf8ByteSize then
        fail s!"expect must not exceed {maxCommandCaptureDetailBytes} UTF-8 bytes"
      else .ok ()
  | none, none => .ok ()

def prepareCommandStep (world : World) (slot : SlotSnapshot) (step : CommandSequenceStepArgs) :
    Except ToolError PreparedCommandStep := do
  validateCommandDescription step.description
  let bytes ← composeWriteBytes step.command (slot.effectiveWriteEol.getD "\r")
  requestedCompletion world step.expect step.regex
  pure ⟨bytes, step.description⟩

/-- The steps from `index` on, and the bytes they plan in total. -/
def prepareSteps (world : World) (slot : SlotSnapshot) :
    ℕ → List CommandSequenceStepArgs → Except ToolError (List PreparedCommandStep × ℕ)
  | _, [] => .ok ([], 0)
  | index, step :: steps =>
      match withContext s!"steps[{index}] is invalid" (prepareCommandStep world slot step) with
      | .error error => .error error
      | .ok prepared =>
          match prepareSteps world slot (index + 1) steps with
          | .error error => .error error
          | .ok (rest, total) => .ok (prepared :: rest, prepared.bytes.length + total)

def prepareCommandSequenceSteps (world : World) (slot : SlotSnapshot)
    (steps : List CommandSequenceStepArgs) : Except ToolError (List PreparedCommandStep) :=
  match validateCommandSequenceShape world steps with
  | .error error => .error error
  | .ok () =>
      match prepareSteps world slot 0 steps with
      | .error error => .error error
      | .ok (prepared, total) =>
          if maxCommandSequenceTotalWriteBytes < total then
            fail (s!"steps plan {total} physical bytes; command_sequence allows at most " ++
              s!"{maxCommandSequenceTotalWriteBytes}")
          else .ok prepared

structure Plan where
  slot : SlotSnapshot
  runId : Uuid
  steps : List PreparedCommandStep

def ensureSequenceWritePreconditionSupported (status : StatusResponse) : Except ToolError Unit :=
  if status.sequenceWritePreconditionSupported then .ok ()
  else
    fail ("seriald does not advertise atomic command_sequence write boundaries; no bytes were " ++
      "written. Install seriald and serial-mcp from the same release")

def ensureSerialContextPreconditionSupported (status : StatusResponse) : Except ToolError Unit :=
  if status.serialContextPreconditionSupported then .ok ()
  else
    fail ("seriald does not advertise atomic serial-context boundaries for Write, BREAK, and " ++
      "Macro; no bytes were written. Install seriald and serial-mcp from the same release")

def onlineSlot (world : World) (status : StatusResponse) (port : String) :
    Except ToolError SlotSnapshot :=
  let portText := world.debug port
  match status.ports.find? fun slot => slot.port = port with
  | none => fail s!"unknown port {portText}"
  | some slot =>
      if slot.sessionState = .online then .ok slot
      else
        let state := world.debugState slot.sessionState
        let reason := slot.stateReason.getD "no reason reported"
        fail s!"port {portText} is {state}: {reason}"

def matchingActiveRun (slot : SlotSnapshot) (expectedRunId : Uuid) (operation : String) :
    Except ToolError Uuid :=
  match slot.activeRun with
  | none => fail s!"no active Run; call run_start before {operation}"
  | some active =>
      if active = expectedRunId then .ok active
      else
        let expected := uuidText expectedRunId
        let actual := uuidText active
        fail (s!"{operation} expected Run {expected}, but port has active Run {actual}; " ++
          "refusing to adopt or modify another caller's Run")

/-- `command_sequence` before its first step. -/
def planSequence (world : World) (args : CommandSequenceArgs) : Except ToolError Plan := do
  validateCommandDescription args.description
  validateCommandSequenceShape world args.steps
  let runUse ← world.authorizeRunUse.mapError (ToolError.mk .plain)
  let status ← world.status.mapError (ToolError.mk .plain)
  ensureSequenceWritePreconditionSupported status
  ensureSerialContextPreconditionSupported status
  let slot ← onlineSlot world status runUse.port
  let _ ← matchingActiveRun slot runUse.runId "command_sequence"
  world.serialContext
  let steps ← prepareCommandSequenceSteps world slot args.steps
  pure ⟨slot, runUse.runId, steps⟩

/-! ## The loop -/

structure SequenceStepOutput extends StepOutput where
  sequenceId : Uuid
  stepIndex : ℕ
  stepCount : ℕ
  status : String
  safeToAdvance : Bool

structure SequenceFailure where
  code : String
  message : String
  stepIndex : ℕ
  phase : String
  nextStepSent : Bool
  /-- the fields of `write_outcome_uncertain_details` are there -/
  uncertainDetails : Bool

structure SequenceOutput where
  port : String
  runId : Uuid
  sequenceId : Uuid
  description : String
  status : String
  requestedSteps : ℕ
  sentSteps : ℕ
  completedSteps : ℕ
  steps : List SequenceStepOutput
  cursor : Cursor
  failure : Option SequenceFailure
  runHandle : String
  runOpen : Bool

/-- The variables of the loop. -/
structure Loop where
  captureAfterSeq : ℕ
  expectedTxOffset : ℕ
  completedSteps : ℕ
  stepOutputs : List SequenceStepOutput

def commandSequenceOutput (world : World) (args : CommandSequenceArgs) (plan : Plan)
    (loop : Loop) (failure : Option SequenceFailure) (runOpen : Bool) : SequenceOutput where
  port := plan.slot.port
  runId := plan.runId
  sequenceId := world.sequenceId
  description := args.description
  status := if failure.isSome then "partial" else "completed"
  requestedSteps := plan.steps.length
  sentSteps := loop.stepOutputs.length
  completedSteps := loop.completedSteps
  steps := loop.stepOutputs
  cursor := (loop.stepOutputs.getLast?.map fun step => step.cursor).getD
    ⟨plan.slot.daemonEpoch, plan.slot.headSeq⟩
  failure := failure
  runHandle := args.runHandle
  runOpen := runOpen

def retained (world : World) : Bool :=
  match world.runOwnershipRetained with
  | .ok retained => retained
  | .error _ => false

/-- The result after step `index` failed: an error where no step has an output. -/
def failedSequence (world : World) (args : CommandSequenceArgs) (plan : Plan) (index : ℕ)
    (loop : Loop) (failure : CommandStepFailure) : Except ToolError SequenceOutput :=
  let boundaryChanged := failure.error.mark = .sequenceBoundaryRejected
  if loop.stepOutputs.isEmpty then
    if boundaryChanged then .error world.contextChanged else .error failure.error
  else
    let code :=
      match failure.error.mark with
      | .writeOutcomeUncertain => "write_outcome_uncertain"
      | .sequenceBoundaryRejected => "sequence_boundary_changed"
      | .userCommandUsed => "user_command_used"
      | _ => "step_error"
    .ok (commandSequenceOutput world args plan loop
      (some ⟨code, failure.error.message, index, failure.phase, false,
        failure.error.mark = .writeOutcomeUncertain⟩) (retained world))

def sequenceStop (world : World) (plan : Plan) (index : ℕ) (executed : ExecutedCommandStep) :
    Option SequenceStop :=
  match executed.completion with
  | .runAborted runId reason =>
      some ⟨"run_aborted", (runAbortError world.debug plan.slot.port runId
        (world.step index).diagnosis reason false).message⟩
  | _ => commandSequenceStop executed (index + 1 < plan.steps.length)

/-- The steps from `index` on, with the writes which they hand to the Session. -/
def runSteps (world : World) (args : CommandSequenceArgs) (plan : Plan) :
    ℕ → List PreparedCommandStep → Loop → List WriteRequest × Except ToolError SequenceOutput
  | _, [], loop => ([], .ok (commandSequenceOutput world args plan loop none (retained world)))
  | index, prepared :: rest, loop =>
      let requestedSteps := plan.steps.length
      let hasNext : Bool := index + 1 < requestedSteps
      let audit : CommandSequenceAuditContext :=
        ⟨world.sequenceId, args.description, index % 256, requestedSteps % 256⟩
      let precondition : SequenceWritePrecondition :=
        ⟨⟨plan.slot.daemonEpoch, loop.captureAfterSeq⟩, plan.slot.generation,
          loop.expectedTxOffset⟩
      let request := handedWrite (world.step index) prepared audit precondition
      match commandStepOutcome world.debug (world.step index) plan.slot plan.runId prepared with
      | .error failure =>
          (request.toList, failedSequence world args plan index loop failure)
      | .ok executed =>
          if 2 ^ 64 ≤ loop.expectedTxOffset + prepared.bytes.length then
            (request.toList, fail "command_sequence TX offset overflowed")
          else
            let stop := sequenceStop world plan index executed
            let output : SequenceStepOutput :=
              { executed.output with
                sequenceId := world.sequenceId
                stepIndex := index
                stepCount := requestedSteps
                status := if stop.isNone then "completed" else "partial"
                safeToAdvance := hasNext && stop.isNone }
            let recorded : Loop :=
              { captureAfterSeq := executed.cursor.afterSeq
                expectedTxOffset := loop.expectedTxOffset + prepared.bytes.length
                completedSteps := loop.completedSteps
                stepOutputs := loop.stepOutputs ++ [output] }
            match stop with
            | some stop =>
                let runOpen := if stop.code = "run_aborted" then false else retained world
                (request.toList, .ok (commandSequenceOutput world args plan recorded
                  (some ⟨stop.code, stop.message, index, "capture", false, false⟩) runOpen))
            | none =>
                let following := runSteps world args plan (index + 1) rest
                  { recorded with completedSteps := recorded.completedSteps + 1 }
                (request.toList ++ following.1, following.2)

def commandSequence (world : World) (args : CommandSequenceArgs) :
    List WriteRequest × Except ToolError SequenceOutput :=
  match planSequence world args with
  | .error error => ([], .error error)
  | .ok plan =>
      runSteps world args plan 0 plan.steps ⟨plan.slot.headSeq, plan.slot.txOffset, 0, []⟩

/-! ## What the result accounts for -/

section Accounting

variable (world : World) (plan : Plan)

/-- Step `k` of the plan ran to its end and passed every stop check. -/
def Passes (k : ℕ) : Prop :=
  ∃ prepared executed, plan.steps[k]? = some prepared ∧
    commandStepOutcome world.debug (world.step k) plan.slot plan.runId prepared = .ok executed ∧
    sequenceStop world plan k executed = none

/-- The writes handed to the Session whose bytes may have reached the port. -/
def writtenSteps (handed : List WriteRequest) : ℕ :=
  (handed.filter fun request =>
    (world.step request.commandSequence.stepIndex).mayHaveWritten).length

structure Accounts (handed : List WriteRequest) (output : SequenceOutput) : Prop where
  written : writtenSteps world handed ≤ output.sentSteps
  completed_le : output.completedSteps ≤ output.sentSteps
  sent_le : output.sentSteps ≤ output.requestedSteps
  requested : output.requestedSteps = plan.steps.length
  passes : ∀ k < output.completedSteps, Passes world plan k
  stops : ¬ Passes world plan output.completedSteps
  failure : output.failure.map SequenceFailure.stepIndex =
    if output.completedSteps < output.requestedSteps then some output.completedSteps else none
  handed_le : ∀ request ∈ handed, request.commandSequence.stepIndex ≤ output.completedSteps

/-- The loop reaches step `k`. -/
def Reaches (k : ℕ) : Prop := k < plan.steps.length ∧ ∀ j < k, Passes world plan j

/-- A step which the loop reaches and whose bytes may have reached the port has its write
accepted and its capture recorded. -/
def RecordsWhatItWrote : Prop :=
  ∀ k, Reaches world plan k → (world.step k).mayHaveWritten = true →
    (world.step k).recorded = true

end Accounting

theorem readWriteReply_error (requestId operationId runId : Uuid) (failure : CallError) :
    ∃ error, readWriteReply requestId operationId runId (.error failure) = .error error := by
  cases failure with
  | daemon error =>
    simp only [readWriteReply]
    split_ifs <;> exact ⟨_, rfl⟩
  | unsent message => exact ⟨_, rfl⟩
  | lost message => exact ⟨_, rfl⟩

/-- A step has an output exactly if its write may have reached the port and its capture was
recorded. -/
theorem commandStepOutcome_ok_iff {debug : String → String} {answers : StepAnswers}
    {slot : SlotSnapshot} {runId : Uuid} {prepared : PreparedCommandStep} :
    (∃ executed, commandStepOutcome debug answers slot runId prepared = .ok executed) ↔
      answers.mayHaveWritten = true ∧ answers.recorded = true := by
  unfold commandStepOutcome sessionWrite StepAnswers.mayHaveWritten StepAnswers.recorded
  cases answers.attach with
  | error error => simp
  | ok =>
    cases answers.renewal with
    | error error => simp
    | ok =>
      cases answers.reply with
      | error failure =>
        obtain ⟨error, herror⟩ := readWriteReply_error answers.requestId answers.operationId
          runId failure
        simp [herror]
      | ok reply =>
        cases reply with
        | other debug => simp [readWriteReply]
        | writeAccepted eventSeq =>
          simp only [readWriteReply, captureStep, mayHaveWritten, true_and]
          cases answers.capture.commandBoundary with
          | none => simp
          | some boundary => cases answers.record <;> simp

theorem handedWrite_isSome {answers : StepAnswers} (prepared : PreparedCommandStep)
    (sequence : CommandSequenceAuditContext) (precondition : SequenceWritePrecondition)
    (h : answers.mayHaveWritten = true) :
    (handedWrite answers prepared sequence precondition).isSome := by
  unfold StepAnswers.mayHaveWritten at h
  unfold handedWrite
  cases hattach : answers.attach with
  | error error => simp [hattach] at h
  | ok => rfl

theorem handedWrite_sequence {answers : StepAnswers} {prepared : PreparedCommandStep}
    {sequence : CommandSequenceAuditContext} {precondition : SequenceWritePrecondition}
    {request : WriteRequest}
    (h : request ∈ (handedWrite answers prepared sequence precondition).toList) :
    request.commandSequence = sequence := by
  unfold handedWrite at h
  cases hattach : answers.attach with
  | error error => simp [hattach] at h
  | ok =>
    simp only [hattach, Option.toList_some, List.mem_singleton] at h
    rw [h]

section Runs

variable {world : World} {args : CommandSequenceArgs} {plan : Plan}

@[simp] theorem writtenSteps_nil : writtenSteps world [] = 0 := rfl

theorem writtenSteps_append (handed more : List WriteRequest) :
    writtenSteps world (handed ++ more) = writtenSteps world handed + writtenSteps world more := by
  simp [writtenSteps]

theorem writtenSteps_handedWrite {prepared : PreparedCommandStep}
    {sequence : CommandSequenceAuditContext} {precondition : SequenceWritePrecondition} :
    writtenSteps world
        (handedWrite (world.step sequence.stepIndex) prepared sequence precondition).toList =
      if (world.step sequence.stepIndex).mayHaveWritten then 1 else 0 := by
  cases hmay : (world.step sequence.stepIndex).mayHaveWritten with
  | true =>
    obtain ⟨request, hrequest⟩ :=
      Option.isSome_iff_exists.mp (handedWrite_isSome prepared sequence precondition hmay)
    have hsequence : request.commandSequence = sequence := by
      apply handedWrite_sequence
      rw [hrequest]
      simp
    simp [hrequest, writtenSteps, hsequence, hmay]
  | false =>
    unfold writtenSteps
    rw [List.filter_eq_nil_iff.mpr]
    · rfl
    · intro request hrequest
      rw [handedWrite_sequence hrequest, hmay]
      simp

/-- How the loop ends at step `k`: the sent steps, the step of the failure and how many writes
of step `k` may have reached the port. -/
inductive Ending (world : World) (plan : Plan) (k : ℕ) : ℕ → Option ℕ → ℕ → Prop
  | completed (hlength : k = plan.steps.length) : Ending world plan k k none 0
  | stopped (prepared : PreparedCommandStep) (executed : ExecutedCommandStep)
      (hstep : plan.steps[k]? = some prepared)
      (houtcome : commandStepOutcome world.debug (world.step k) plan.slot plan.runId prepared =
        .ok executed)
      (hstop : sequenceStop world plan k executed ≠ none) :
      Ending world plan k (k + 1) (some k) 1
  | failed (prepared : PreparedCommandStep) (failure : CommandStepFailure)
      (hstep : plan.steps[k]? = some prepared)
      (houtcome : commandStepOutcome world.debug (world.step k) plan.slot plan.runId prepared =
        .error failure) :
      Ending world plan k k (some k) (if (world.step k).mayHaveWritten then 1 else 0)

/-- A run of the loop from step `start` which returned a result ends at step `k`. -/
structure EndsAt (world : World) (plan : Plan) (start : ℕ) (handed : List WriteRequest)
    (output : SequenceOutput) (k : ℕ) : Prop where
  requested : output.requestedSteps = plan.steps.length
  completed : output.completedSteps = k
  start_le : start ≤ k
  le_length : k ≤ plan.steps.length
  passes : ∀ j, start ≤ j → j < k → Passes world plan j
  handed_le : ∀ request ∈ handed, request.commandSequence.stepIndex ≤ k
  ending : ∃ last, Ending world plan k output.sentSteps
    (output.failure.map SequenceFailure.stepIndex) last ∧
    writtenSteps world handed + start = k + last

/-- What a failed step leaves in the result. -/
structure FailedOutput (plan : Plan) (index : ℕ) (loop : Loop) (output : SequenceOutput) :
    Prop where
  requested : output.requestedSteps = plan.steps.length
  completed : output.completedSteps = loop.completedSteps
  sent : output.sentSteps = loop.stepOutputs.length
  failure : output.failure.map SequenceFailure.stepIndex = some index

theorem failedSequence_eq_ok {index : ℕ} {loop : Loop} {failure : CommandStepFailure}
    {output : SequenceOutput}
    (h : failedSequence world args plan index loop failure = .ok output) :
    FailedOutput plan index loop output := by
  unfold failedSequence at h
  dsimp only at h
  split_ifs at h
  simp only [Except.ok.injEq] at h
  subst h
  exact ⟨rfl, rfl, rfl, rfl⟩

theorem runSteps_endsAt (hlength : plan.steps.length ≤ 256) (rest : List PreparedCommandStep) :
    ∀ (index : ℕ) (loop : Loop) (handed : List WriteRequest) (output : SequenceOutput),
      plan.steps.drop index = rest → index ≤ plan.steps.length → loop.completedSteps = index →
      loop.stepOutputs.length = index →
      runSteps world args plan index rest loop = (handed, .ok output) →
      ∃ k, EndsAt world plan index handed output k := by
  induction rest with
  | nil =>
    intro index loop handed output hdrop hindex hcompleted houtputs hrun
    have hend : plan.steps.length ≤ index := List.drop_eq_nil_iff.mp hdrop
    simp only [runSteps, Prod.mk.injEq, Except.ok.injEq] at hrun
    obtain ⟨rfl, rfl⟩ := hrun
    refine ⟨index, rfl, hcompleted, le_refl _, hindex, ?_, ?_, 0, ?_, ?_⟩
    · intro j hle hlt
      omega
    · intro request hrequest
      simp at hrequest
    · have hending : Ending world plan index index none 0 := .completed (by omega)
      simpa [commandSequenceOutput, houtputs] using hending
    · simp
  | cons prepared rest ih =>
    intro index loop handed output hdrop hindex hcompleted houtputs hrun
    have hlt : index < plan.steps.length := by
      by_contra hge
      rw [List.drop_eq_nil_iff.mpr (by omega)] at hdrop
      simp at hdrop
    have hstep : plan.steps[index]? = some prepared := by
      have hhead := congrArg List.head? hdrop
      simpa using hhead
    have hmod : index % 256 = index := Nat.mod_eq_of_lt (by omega)
    rw [runSteps, hmod] at hrun
    generalize hsequence : CommandSequenceAuditContext.mk world.sequenceId args.description index
      (plan.steps.length % 256) = sequence at hrun
    have hplace : sequence.stepIndex = index := by rw [← hsequence]
    dsimp only at hrun
    generalize hrequest : handedWrite (world.step index) prepared sequence _ = request at hrun
    have hhanded : ∀ write ∈ request.toList, write.commandSequence.stepIndex = index := by
      intro write hwrite
      rw [← hrequest] at hwrite
      rw [handedWrite_sequence hwrite, hplace]
    have hwritten : writtenSteps world request.toList =
        if (world.step index).mayHaveWritten then 1 else 0 := by
      rw [← hrequest, ← hplace]
      exact writtenSteps_handedWrite
    cases houtcome : commandStepOutcome world.debug (world.step index) plan.slot plan.runId
        prepared with
    | error failure =>
      simp only [houtcome, Prod.mk.injEq] at hrun
      obtain ⟨rfl, hresult⟩ := hrun
      have houtput := failedSequence_eq_ok hresult
      refine ⟨index, houtput.requested, ?_, le_refl _, hindex, ?_, ?_,
        if (world.step index).mayHaveWritten then 1 else 0, ?_, ?_⟩
      · rw [houtput.completed, hcompleted]
      · intro j hle hlt
        omega
      · intro write hwrite
        exact (hhanded write hwrite).le
      · have hending := Ending.failed prepared failure hstep houtcome
        rw [houtput.sent, houtputs, houtput.failure]
        exact hending
      · rw [hwritten, Nat.add_comm]
    | ok executed =>
      have hmay := (commandStepOutcome_ok_iff.mp ⟨executed, houtcome⟩).1
      rw [hmay, if_pos rfl] at hwritten
      simp only [houtcome] at hrun
      split at hrun
      · simp [fail] at hrun
      · cases hstop : sequenceStop world plan index executed with
        | some stop =>
          simp only [hstop, Prod.mk.injEq, Except.ok.injEq] at hrun
          obtain ⟨rfl, rfl⟩ := hrun
          refine ⟨index, rfl, hcompleted, le_refl _, hindex, ?_, ?_, 1, ?_, ?_⟩
          · intro j hle hlt
            omega
          · intro write hwrite
            exact (hhanded write hwrite).le
          · have hending := Ending.stopped prepared executed hstep houtcome (by simp [hstop])
            simpa [commandSequenceOutput, houtputs] using hending
          · rw [hwritten, Nat.add_comm]
        | none =>
          simp only [hstop] at hrun
          generalize hfollowing : runSteps world args plan (index + 1) rest _ = following at hrun
          obtain ⟨more, result⟩ := following
          simp only [Prod.mk.injEq] at hrun
          obtain ⟨rfl, rfl⟩ := hrun
          have hpasses : Passes world plan index := ⟨prepared, executed, hstep, houtcome, hstop⟩
          have hdropped : plan.steps.drop (index + 1) = rest := by
            rw [← List.drop_drop, hdrop]
            rfl
          obtain ⟨k, hends⟩ := ih (index + 1) _ more output hdropped hlt (by simp [hcompleted])
            (by simp [houtputs]) hfollowing
          obtain ⟨last, hending, hcount⟩ := hends.ending
          refine ⟨k, hends.requested, hends.completed, by have := hends.start_le; omega,
            hends.le_length, ?_, ?_, last, hending, ?_⟩
          · intro j hle hlt
            rcases Nat.eq_or_lt_of_le hle with rfl | hnext
            · exact hpasses
            · exact hends.passes j hnext hlt
          · intro write hwrite
            rcases List.mem_append.mp hwrite with hwrite | hwrite
            · have hstart := hends.start_le
              rw [hhanded write hwrite]
              omega
            · exact hends.handed_le write hwrite
          · rw [writtenSteps_append, hwritten]
            omega

/-- A step passes in at most one way: its outcome is what the answers make of it. -/
theorem Passes.outcome_eq {k : ℕ} {prepared : PreparedCommandStep}
    {outcome : Except CommandStepFailure ExecutedCommandStep} (h : Passes world plan k)
    (hstep : plan.steps[k]? = some prepared)
    (houtcome : commandStepOutcome world.debug (world.step k) plan.slot plan.runId prepared =
      outcome) :
    ∃ executed, outcome = .ok executed ∧ sequenceStop world plan k executed = none := by
  obtain ⟨prepared', executed, hstep', houtcome', hstop⟩ := h
  rw [hstep] at hstep'
  cases hstep'
  exact ⟨executed, houtcome.symm.trans houtcome', hstop⟩

theorem Ending.not_passes {k sent last : ℕ} {failing : Option ℕ}
    (h : Ending world plan k sent failing last) : ¬ Passes world plan k := by
  intro hpasses
  cases h with
  | completed hlength =>
    obtain ⟨prepared, executed, hstep, -⟩ := hpasses
    rw [List.getElem?_eq_none (by omega)] at hstep
    cases hstep
  | stopped prepared executed hstep houtcome hstop =>
    obtain ⟨executed', heq, hnone⟩ := hpasses.outcome_eq hstep houtcome
    cases heq
    exact hstop hnone
  | failed prepared failure hstep houtcome =>
    obtain ⟨executed', heq, -⟩ := hpasses.outcome_eq hstep houtcome
    cases heq

theorem Ending.bounds {k sent last : ℕ} {failing : Option ℕ}
    (h : Ending world plan k sent failing last) (hle : k ≤ plan.steps.length) :
    k ≤ sent ∧ sent ≤ plan.steps.length ∧
      failing = if k < plan.steps.length then some k else none := by
  have hlt {prepared : PreparedCommandStep} (hstep : plan.steps[k]? = some prepared) :
      k < plan.steps.length := (List.getElem?_eq_some_iff.mp hstep).1
  cases h with
  | completed hlength => simp [← hlength]
  | stopped prepared executed hstep houtcome hstop => simp [hlt hstep]
  | failed prepared failure hstep houtcome =>
    simp only [hlt hstep, le_refl, if_true, and_true, true_and]
    exact hle

/-- Every write which may have reached the port is counted if the failing step wrote none. -/
theorem Ending.last_le {k sent last : ℕ} {failing : Option ℕ}
    (h : Ending world plan k sent failing last)
    (hpasses : ∀ j < k, Passes world plan j) (hclean : RecordsWhatItWrote world plan) :
    k + last ≤ sent := by
  cases h with
  | completed hlength => exact le_refl _
  | stopped prepared executed hstep houtcome hstop => exact le_refl _
  | failed prepared failure hstep houtcome =>
    have hlt := (List.getElem?_eq_some_iff.mp hstep).1
    cases hmay : (world.step k).mayHaveWritten with
    | false => simp
    | true =>
      have hrecorded := hclean k ⟨hlt, hpasses⟩ hmay
      obtain ⟨executed, hok⟩ := commandStepOutcome_ok_iff.mpr ⟨hmay, hrecorded⟩
      rw [houtcome] at hok
      cases hok

/-- A step which fails after its write is not counted. -/
theorem Ending.of_error {k sent last : ℕ} {failing : Option ℕ}
    {prepared : PreparedCommandStep} {failure : CommandStepFailure}
    (h : Ending world plan k sent failing last) (hstep : plan.steps[k]? = some prepared)
    (houtcome : commandStepOutcome world.debug (world.step k) plan.slot plan.runId prepared =
      .error failure)
    (hmay : (world.step k).mayHaveWritten = true) : sent < k + last := by
  cases h with
  | completed hlength =>
    have hlt := (List.getElem?_eq_some_iff.mp hstep).1
    omega
  | stopped prepared' executed hstep' houtcome' hstop =>
    rw [hstep] at hstep'
    cases hstep'
    rw [houtcome] at houtcome'
    cases houtcome'
  | failed prepared' failure' hstep' houtcome' =>
    rw [hmay, if_pos rfl]
    exact Nat.lt_succ_self k

theorem EndsAt.accounts_iff {handed : List WriteRequest} {output : SequenceOutput} {k : ℕ}
    (h : EndsAt world plan 0 handed output k) :
    Accounts world plan handed output ↔ RecordsWhatItWrote world plan := by
  have hpasses : ∀ j < k, Passes world plan j := fun j hj => h.passes j (Nat.zero_le j) hj
  obtain ⟨last, hending, hcount⟩ := h.ending
  have hbounds := hending.bounds h.le_length
  constructor
  · intro haccounts place hreaches hmay
    by_contra hrecorded
    obtain ⟨prepared, hstep⟩ : ∃ prepared, plan.steps[place]? = some prepared :=
      ⟨_, List.getElem?_eq_getElem hreaches.1⟩
    cases houtcome : commandStepOutcome world.debug (world.step place) plan.slot plan.runId
        prepared with
    | ok executed =>
      exact hrecorded (commandStepOutcome_ok_iff.mp ⟨executed, houtcome⟩).2
    | error failure =>
      have hfails : ¬ Passes world plan place := by
        intro hplace
        obtain ⟨executed, heq, -⟩ := hplace.outcome_eq hstep houtcome
        cases heq
      -- the first failing step is where the loop ended
      have hplace : place = k := by
        rcases Nat.lt_trichotomy place k with hlt | heq | hgt
        · exact absurd (hpasses place hlt) hfails
        · exact heq
        · exact absurd (hreaches.2 k hgt) hending.not_passes
      subst hplace
      have hwritten := haccounts.written
      have hlast := hending.of_error hstep houtcome hmay
      omega
  · intro hclean
    have hlast := hending.last_le hpasses hclean
    refine ⟨by omega, ?_, ?_, h.requested, ?_, ?_, ?_, ?_⟩
    · rw [h.completed]
      exact hbounds.1
    · rw [h.requested]
      exact hbounds.2.1
    · rw [h.completed]
      exact hpasses
    · rw [h.completed]
      exact hending.not_passes
    · rw [h.completed, h.requested]
      exact hbounds.2.2
    · rw [h.completed]
      exact h.handed_le

end Runs

theorem prepareSteps_length {world : World} {slot : SlotSnapshot}
    (steps : List CommandSequenceStepArgs) :
    ∀ {index : ℕ} {prepared : List PreparedCommandStep} {total : ℕ},
      prepareSteps world slot index steps = .ok (prepared, total) →
        prepared.length = steps.length := by
  induction steps with
  | nil =>
    intro index prepared total h
    simp only [prepareSteps, Except.ok.injEq, Prod.mk.injEq] at h
    rw [← h.1]
    rfl
  | cons step steps ih =>
    intro index prepared total h
    rw [prepareSteps] at h
    split at h
    · cases h
    · split at h
      · cases h
      · rename_i rest total' hrest
        simp only [Except.ok.injEq, Prod.mk.injEq] at h
        rw [← h.1, List.length_cons, List.length_cons, ih hrest]

theorem prepareCommandSequenceSteps_length {world : World} {slot : SlotSnapshot}
    {steps : List CommandSequenceStepArgs} {prepared : List PreparedCommandStep}
    (h : prepareCommandSequenceSteps world slot steps = .ok prepared) :
    prepared.length ≤ maxCommandSequenceSteps := by
  unfold prepareCommandSequenceSteps at h
  split at h
  · cases h
  rename_i hshape
  split at h
  · cases h
  rename_i planned total hplanned
  split at h
  · simp [fail] at h
  simp only [Except.ok.injEq] at h
  have hlength := prepareSteps_length steps hplanned
  unfold validateCommandSequenceShape at hshape
  split at hshape
  · simp [fail] at hshape
  · rename_i hbounds
    simp only [Bool.or_eq_true, decide_eq_true_eq, not_or, not_lt] at hbounds
    rw [← h, hlength]
    exact hbounds.2

theorem planSequence_length {world : World} {args : CommandSequenceArgs} {plan : Plan}
    (h : planSequence world args = .ok plan) :
    plan.steps.length ≤ maxCommandSequenceSteps := by
  unfold planSequence at h
  obtain ⟨-, -, h⟩ := Except.exists_of_bind_ok h
  obtain ⟨-, -, h⟩ := Except.exists_of_bind_ok h
  obtain ⟨runUse, -, h⟩ := Except.exists_of_bind_ok h
  obtain ⟨status, -, h⟩ := Except.exists_of_bind_ok h
  obtain ⟨-, -, h⟩ := Except.exists_of_bind_ok h
  obtain ⟨-, -, h⟩ := Except.exists_of_bind_ok h
  obtain ⟨slot, -, h⟩ := Except.exists_of_bind_ok h
  obtain ⟨-, -, h⟩ := Except.exists_of_bind_ok h
  obtain ⟨-, -, h⟩ := Except.exists_of_bind_ok h
  obtain ⟨steps, hsteps, h⟩ := Except.exists_of_bind_ok h
  cases h
  exact prepareCommandSequenceSteps_length hsteps

/-- A command sequence which returns a result accounts for every step that may have been sent
exactly if the step that ended it did not fail after its write. -/
theorem commandSequence_accounts_iff {world : World} {args : CommandSequenceArgs}
    {handed : List WriteRequest} {output : SequenceOutput}
    (h : commandSequence world args = (handed, .ok output)) :
    ∃ plan, planSequence world args = .ok plan ∧
      (Accounts world plan handed output ↔ RecordsWhatItWrote world plan) := by
  unfold commandSequence at h
  cases hplan : planSequence world args with
  | error error => simp [hplan] at h
  | ok plan =>
    simp only [hplan] at h
    have hlength := planSequence_length hplan
    obtain ⟨k, hends⟩ := runSteps_endsAt
      (hlength.trans (by decide)) plan.steps 0 _ handed output rfl (Nat.zero_le _) rfl rfl h
    exact ⟨plan, rfl, hends.accounts_iff⟩

/-! A sequence of two commands: the first passes, and the daemon does not record the capture of
the second. -/

def sampleArgs : CommandSequenceArgs where
  runHandle := "run"
  description := "two commands"
  steps := [⟨"a", "first", some "x", none, none⟩, ⟨"b", "second", none, none, none⟩]

def sampleAnswers (record : Except String CommandCaptureCompleted) : StepAnswers where
  operationId := 3
  requestId := 4
  attach := .ok ()
  renewal := .ok ()
  reply := .ok (.writeAccepted 7)
  diagnosis := none
  capture :=
    { events := [], truncated := false, gaps := [], completion := .pattern "x"
      throughSeq := some 8
      commandBoundary :=
        some ⟨⟨none, none, 0, 0, 0, 0⟩, true, true, true, false, 0, 0, false⟩ }
  rendered := ⟨"x", false⟩
  record := record

def sampleCapture : CommandCaptureCompleted where
  daemonEpoch := 1
  generation := 1
  runId := 2
  operationId := 3
  txEventSeq := 7
  evidenceFromSeq := 7
  evidenceThroughSeq := 8
  completion := .literal
  completionDetail := some "x"
  confidence := .high
  recordEventSeq := 9
  txStreamOffsetStart := none
  txStreamOffsetEnd := none
  rxStreamOffsetStart := none
  rxStreamOffsetEnd := none

/-- The daemon records the captures of the steps before `lost`. -/
def sampleWorld (lost : ℕ) : World where
  debug := id
  debugState := fun _ => "Online"
  regex := fun _ => .ok false
  sequenceId := 5
  authorizeRunUse := .ok ⟨"/dev/ttyUSB0", 2⟩
  status := .ok ⟨true, true, [⟨"/dev/ttyUSB0", 1, 1, 6, 0, some "\r", .online, none, some 2⟩]⟩
  serialContext := .ok ()
  step := fun k =>
    sampleAnswers (if k < lost then .ok sampleCapture else .error "seriald is unavailable")
  contextChanged := ⟨.contextChanged, "serial context changed"⟩
  runOwnershipRetained := .ok true

/-- What a run of the sample reports beside what it wrote. -/
def sampleCounts (lost : ℕ) : Option (ℕ × ℕ) :=
  (commandSequence (sampleWorld lost) sampleArgs).2.toOption.map fun output =>
    (writtenSteps (sampleWorld lost) (commandSequence (sampleWorld lost) sampleArgs).1,
      output.sentSteps)

theorem sampleCounts_some {lost written sent : ℕ} (h : sampleCounts lost = some (written, sent)) :
    ∃ handed output, commandSequence (sampleWorld lost) sampleArgs = (handed, .ok output) ∧
      writtenSteps (sampleWorld lost) handed = written ∧ output.sentSteps = sent := by
  unfold sampleCounts at h
  generalize commandSequence (sampleWorld lost) sampleArgs = run at h
  obtain ⟨handed, result⟩ := run
  cases result with
  | error error => simp [Except.toOption] at h
  | ok output =>
    simp only [Except.toOption, Option.map_some, Option.some.injEq, Prod.mk.injEq] at h
    exact ⟨handed, output, rfl, h.1, h.2⟩

example : sampleCounts 1 = some (2, 1) := by decide +kernel

/-- Two commands were written and one is reported as sent. -/
theorem unrecorded_step_not_counted :
    ∃ handed output, commandSequence (sampleWorld 1) sampleArgs = (handed, .ok output) ∧
      ∀ plan, ¬ Accounts (sampleWorld 1) plan handed output := by
  have hcounts : sampleCounts 1 = some (2, 1) := by decide
  obtain ⟨handed, output, hrun, hwritten, hsent⟩ := sampleCounts_some hcounts
  refine ⟨handed, output, hrun, ?_⟩
  intro plan haccounts
  have hle := haccounts.written
  omega

theorem commandSequence_accounts_recorded :
    ∃ handed output plan, planSequence (sampleWorld 2) sampleArgs = .ok plan ∧
      commandSequence (sampleWorld 2) sampleArgs = (handed, .ok output) ∧
      (Accounts (sampleWorld 2) plan handed output ↔ RecordsWhatItWrote (sampleWorld 2) plan) := by
  have hcounts : sampleCounts 2 = some (2, 2) := by decide
  obtain ⟨handed, output, hrun, -⟩ := sampleCounts_some hcounts
  obtain ⟨plan, hplan, hiff⟩ := commandSequence_accounts_iff hrun
  exact ⟨handed, output, plan, hplan, hrun, hiff⟩

end SerialPlatform.Command
