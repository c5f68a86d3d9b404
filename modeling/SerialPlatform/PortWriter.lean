import SerialPlatform.SlotCommands

/-!
# The port writer

One worker writes the accepted commands of a port in order.  What the driver,
the cancel signal and the timers do while a command is written is a list of
polls; the writer loop is a function of that list.  A list which ends too early
is a writer which stopped before it answered.
-/

namespace SerialPlatform

/-- `WRITE_TIMEOUT` in milliseconds. -/
def writeTimeoutMs : ℕ := 2000

/-- `WRITE_CHUNK_OVERHEAD_ALLOWANCE` in milliseconds. -/
def writeChunkOverheadAllowanceMs : ℕ := 20

/-- `WRITE_LEASE_SAFETY_MARGIN` in milliseconds. -/
def writeLeaseSafetyMarginMs : ℕ := 100

/-- `MAX_WRITE_TIMEOUT` in milliseconds. -/
def maxWriteTimeoutMs : ℕ := 15000

/-- Deadline budget of one paced write, or the budget which is refused. -/
def writeDeadline (totalBytes chunkSize chunkDelayMs : ℕ) : Except ℕ ℕ :=
  if chunkDelayMs = 0 then
    .ok (fromMillis writeTimeoutMs)
  else
    let chunkCount := (totalBytes + (max chunkSize 1 - 1)) / max chunkSize 1
    let additionalChunks := chunkCount - 1
    let pacingMillis := additionalChunks * chunkDelayMs
    let schedulingMillis := additionalChunks * writeChunkOverheadAllowanceMs
    let budgetMillis := min (writeTimeoutMs + pacingMillis * 2 + schedulingMillis) u64Max
    if maxWriteTimeoutMs < budgetMillis then
      .error budgetMillis
    else
      .ok (fromMillis budgetMillis)

/-- `as_millis` of a duration, bounded to `u64`. -/
def durationMillisSaturating (duration : ℕ) : ℕ :=
  min (duration / 1000000) u64Max

def ensureLeaseCoversWrite (leaseRemaining writeTimeout : ℕ) : Except SlotError Unit :=
  if leaseRemaining < fromMillis writeLeaseSafetyMarginMs + writeTimeout then
    .error (.writeLeaseTooShort (durationMillisSaturating leaseRemaining)
      (durationMillisSaturating writeTimeout) writeLeaseSafetyMarginMs)
  else
    .ok ()

/-! ## Paced writes -/

structure PortWriteOutcome where
  written : ℕ
  error : Option String
  cancelled : Bool
  deriving DecidableEq

/-- What ends one wait of the writer loop. -/
inductive WriterPoll where
  | cancelled
  | deadline
  | noProgress
  | accepted (count : ℕ)
  | failed (message : String)
  | elapsed
  deriving DecidableEq

def cancelledMessage : String :=
  "serial write cancelled because the port is closing"

def timedOutMessage : String :=
  "serial write timed out; port state is uncertain"

def noProgressMessage : String :=
  "serial driver write timed out after making no progress; port state is uncertain"

def zeroBytesMessage : String := "serial driver accepted zero bytes"

/-- What one write did: the bytes which the driver took, in order, and the
outcome reported to the port actor. -/
structure WriterRun where
  accepted : Bytes
  outcome : Option PortWriteOutcome
  deriving DecidableEq

/-- Where the writer loop goes after one wait. -/
inductive WriterMove where
  | finish (outcome : PortWriteOutcome) (taken : Bytes)
  | go (written chunkEnd : ℕ) (error : Option String) (pausing : Bool) (taken : Bytes)

/-- The end of the current chunk: without a chunk delay the next one begins at
once.  An error that left the inner loop is remembered. -/
def leaveChunk (total chunkSize chunkDelayMs written chunkEnd : ℕ)
    (error : Option String) (taken : Bytes) : WriterMove :=
  if chunkDelayMs = 0 then
    .go written (min (written + chunkSize) total) error false taken
  else
    .go written chunkEnd error true taken

/-- One wait for the driver inside a chunk. -/
def chunkMove (data : Bytes) (chunkSize chunkDelayMs written chunkEnd : ℕ)
    (error : Option String) : WriterPoll → WriterMove
  | .cancelled =>
      .finish { written := written, error := some cancelledMessage, cancelled := true } []
  | .deadline =>
      .finish { written := written, error := some timedOutMessage, cancelled := false } []
  | .noProgress =>
      leaveChunk data.length chunkSize chunkDelayMs written chunkEnd
        (some noProgressMessage) []
  | .failed message =>
      leaveChunk data.length chunkSize chunkDelayMs written chunkEnd (some message) []
  | .accepted count =>
      if count = 0 then
        leaveChunk data.length chunkSize chunkDelayMs written chunkEnd
          (some zeroBytesMessage) []
      else
        let taken := ((data.take chunkEnd).drop written).take count
        let next := written + taken.length
        if error.isSome then
          .finish { written := next, error := error, cancelled := false } taken
        else if next < chunkEnd then
          .go next chunkEnd none false taken
        else
          leaveChunk data.length chunkSize chunkDelayMs next chunkEnd none taken
  | .elapsed =>
      -- a change of the cancel channel which is no cancellation
      if error.isSome then
        .finish { written := written, error := error, cancelled := false } []
      else
        .go written chunkEnd none false []

/-- One wait between two chunks. -/
def pauseMove (data : Bytes) (chunkSize written : ℕ) (error : Option String) :
    WriterPoll → WriterMove
  | .cancelled =>
      .finish { written := written, error := some cancelledMessage, cancelled := true } []
  | .deadline =>
      .finish { written := written, error := some timedOutMessage, cancelled := false } []
  | _ =>
      if error.isSome then
        .finish { written := written, error := error, cancelled := false } []
      else
        .go written (min (written + chunkSize) data.length) none false []

/-- The loop of `write_with_pacing`. -/
def writeChunks (data : Bytes) (chunkSize chunkDelayMs : ℕ) :
    List WriterPoll → ℕ → ℕ → Option String → Bool → Bytes → WriterRun
  | polls, written, chunkEnd, error, pausing, accepted =>
      if data.length ≤ written then
        { accepted := accepted
          outcome := some { written := written, error := error, cancelled := false } }
      else
        match polls with
        | [] => { accepted := accepted, outcome := none }
        | poll :: polls =>
            let move :=
              if pausing then pauseMove data chunkSize written error poll
              else chunkMove data chunkSize chunkDelayMs written chunkEnd error poll
            match move with
            | .finish outcome taken =>
                { accepted := accepted ++ taken, outcome := some outcome }
            | .go written chunkEnd error pausing taken =>
                writeChunks data chunkSize chunkDelayMs polls written chunkEnd error
                  pausing (accepted ++ taken)

def writeWithPacing (data : Bytes) (pacing : WritePacing) (polls : List WriterPoll) :
    WriterRun :=
  let chunkSize := max pacing.chunkSize 1
  writeChunks data chunkSize pacing.chunkDelayMs polls 0
    (min chunkSize data.length) none false []

/-! ## BREAK -/

inductive PortBreakFailure where
  | unsupported (message : String)
  | failed (message : String)
  deriving DecidableEq

structure PortBreakOutcome where
  error : Option PortBreakFailure
  cancelled : Bool
  deriving DecidableEq

/-- `needle` occurs in `text`. -/
def containsText (text needle : String) : Bool :=
  needle.toList <:+: text.toList

def classifyBreakAssertFailure (error : String) : PortBreakFailure :=
  let message := "failed to assert BREAK: " ++ error
  let normalized := message.map Char.toLower
  if containsText normalized "not supported" || containsText normalized "unsupported" ||
      containsText normalized "not implemented" then
    .unsupported message
  else
    .failed message

def finishBreakAfterAssert (cancelled : Bool) (clearResult : Except String Unit) :
    PortBreakOutcome :=
  let clearError :=
    match clearResult with
    | .ok () => none
    | .error error => some ("failed to clear BREAK: " ++ error)
  let error :=
    match cancelled, clearError with
    | false, none => none
    | false, some error => some (PortBreakFailure.failed error)
    | true, none => some (.failed "BREAK was cancelled because the port is closing")
    | true, some error =>
        some (.failed ("BREAK was cancelled because the port is closing; " ++ error))
  { error := error, cancelled := cancelled }

/-- What the break lines of the driver do during one BREAK. -/
structure BreakPolls where
  assertResult : Except String Unit
  cancelled : Bool
  clearResult : Except String Unit

def sendBreak (polls : BreakPolls) : PortBreakOutcome :=
  match polls.assertResult with
  | .error error => { error := some (classifyBreakAssertFailure error), cancelled := false }
  | .ok () => finishBreakAfterAssert polls.cancelled polls.clearResult

/-! ## What a write reports -/

/-- The loop invariant: the driver took exactly the first `written` bytes, and a
chunk stays open while the writer is not between two chunks. -/
structure WriterPosition (data : Bytes) (written chunkEnd : ℕ) (pausing : Bool)
    (accepted : Bytes) : Prop where
  accepted_eq : accepted = data.take written
  written_le : written ≤ data.length
  chunkEnd_le : chunkEnd ≤ data.length
  chunk_open : pausing = false → written < data.length → written < chunkEnd

/-- What a finished write tells about the bytes which the driver took. -/
structure WriterReport (data accepted : Bytes) (outcome : PortWriteOutcome) : Prop where
  accepted_eq : accepted = data.take outcome.written
  written_le : outcome.written ≤ data.length
  complete : outcome.error = none → outcome.written = data.length

/-- A move of the writer loop keeps the invariant or reports the truth. -/
def WriterMove.Sound (data accepted : Bytes) : WriterMove → Prop
  | .finish outcome taken => WriterReport data (accepted ++ taken) outcome
  | .go written chunkEnd _ pausing taken =>
      WriterPosition data written chunkEnd pausing (accepted ++ taken)

section Moves

variable {data accepted taken : Bytes} {chunkSize chunkDelayMs written chunkEnd : ℕ}
  {error : Option String} {pausing : Bool}

theorem finish_sound {cancelled : Bool} (haccepted : accepted ++ taken = data.take written)
    (hwritten : written ≤ data.length) (herror : error.isSome = true) :
    (WriterMove.finish
      { written := written, error := error, cancelled := cancelled } taken).Sound
        data accepted := by
  refine ⟨haccepted, hwritten, fun hnone => ?_⟩
  simp only at hnone
  simp [hnone] at herror

theorem leaveChunk_sound (hchunk : 0 < chunkSize)
    (haccepted : accepted ++ taken = data.take written)
    (hwritten : written ≤ data.length) (hend : chunkEnd ≤ data.length) :
    (leaveChunk data.length chunkSize chunkDelayMs written chunkEnd error taken).Sound
      data accepted := by
  unfold leaveChunk
  split_ifs with hdelay
  · exact ⟨haccepted, hwritten, by omega, by omega⟩
  · exact ⟨haccepted, hwritten, hend, by simp⟩

theorem pauseMove_sound (hchunk : 0 < chunkSize)
    (hposition : WriterPosition data written chunkEnd pausing accepted)
    (poll : WriterPoll) :
    (pauseMove data chunkSize written error poll).Sound data accepted := by
  have haccepted : accepted ++ [] = data.take written := by
    simpa using hposition.accepted_eq
  have hwritten := hposition.written_le
  have hrest : (if error.isSome then
      WriterMove.finish { written := written, error := error, cancelled := false } []
      else .go written (min (written + chunkSize) data.length) none false []).Sound
        data accepted := by
    split_ifs with herror
    · exact finish_sound haccepted hwritten herror
    · exact ⟨haccepted, hwritten, by omega, by omega⟩
  cases poll with
  | cancelled => exact finish_sound haccepted hwritten rfl
  | deadline => exact finish_sound haccepted hwritten rfl
  | noProgress => exact hrest
  | accepted count => exact hrest
  | failed message => exact hrest
  | elapsed => exact hrest

theorem chunkMove_sound (hchunk : 0 < chunkSize)
    (hposition : WriterPosition data written chunkEnd false accepted)
    (poll : WriterPoll) :
    (chunkMove data chunkSize chunkDelayMs written chunkEnd error poll).Sound
      data accepted := by
  obtain ⟨haccepted', hwritten, hend, hopen⟩ := hposition
  have haccepted : accepted ++ [] = data.take written := by
    simpa using haccepted'
  cases poll with
  | cancelled => exact finish_sound haccepted hwritten rfl
  | deadline => exact finish_sound haccepted hwritten rfl
  | noProgress => exact leaveChunk_sound hchunk haccepted hwritten hend
  | failed message => exact leaveChunk_sound hchunk haccepted hwritten hend
  | elapsed =>
      unfold chunkMove
      split_ifs with herror
      · exact finish_sound haccepted hwritten herror
      · exact ⟨haccepted, hwritten, hend, hopen⟩
  | accepted count =>
      have htaken : (((data.take chunkEnd).drop written).take count).length =
          min count (chunkEnd - written) := by
        simp only [List.length_take, List.length_drop]
        omega
      have hnext : accepted ++ ((data.take chunkEnd).drop written).take count =
          data.take (written +
            (((data.take chunkEnd).drop written).take count).length) := by
        rw [haccepted', htaken, List.take_add]
        congr 1
        rw [List.drop_take, List.take_take]
      have hbound : written +
          (((data.take chunkEnd).drop written).take count).length ≤ data.length := by
        omega
      simp only [chunkMove]
      split_ifs with hzero herror hmore
      · exact leaveChunk_sound hchunk haccepted hwritten hend
      · exact finish_sound hnext hbound herror
      · exact ⟨hnext, hbound, hend, fun _ _ => hmore⟩
      · exact leaveChunk_sound hchunk hnext hbound hend

end Moves

theorem writeChunks_spec {data : Bytes} {chunkSize chunkDelayMs : ℕ}
    (hchunk : 0 < chunkSize) (polls : List WriterPoll) {written chunkEnd : ℕ}
    {error : Option String} {pausing : Bool} {accepted : Bytes}
    {outcome : PortWriteOutcome}
    (hposition : WriterPosition data written chunkEnd pausing accepted)
    (hrun : (writeChunks data chunkSize chunkDelayMs polls written chunkEnd error pausing
      accepted).outcome = some outcome) :
    WriterReport data (writeChunks data chunkSize chunkDelayMs polls written chunkEnd error
      pausing accepted).accepted outcome := by
  induction polls generalizing written chunkEnd error pausing accepted with
  | nil =>
      unfold writeChunks at hrun ⊢
      by_cases hdone : data.length ≤ written
      · rw [if_pos hdone] at hrun ⊢
        obtain rfl := Option.some.inj hrun
        have hwritten := hposition.written_le
        exact ⟨hposition.accepted_eq, hwritten, fun _ => by simp only; omega⟩
      · rw [if_neg hdone] at hrun
        cases hrun
  | cons poll polls ih =>
      have hsound : (if pausing then pauseMove data chunkSize written error poll
          else chunkMove data chunkSize chunkDelayMs written chunkEnd error poll).Sound
            data accepted := by
        cases pausing with
        | true => exact pauseMove_sound hchunk hposition poll
        | false => exact chunkMove_sound hchunk hposition poll
      unfold writeChunks at hrun ⊢
      by_cases hdone : data.length ≤ written
      · rw [if_pos hdone] at hrun ⊢
        obtain rfl := Option.some.inj hrun
        have hwritten := hposition.written_le
        exact ⟨hposition.accepted_eq, hwritten, fun _ => by simp only; omega⟩
      · rw [if_neg hdone] at hrun ⊢
        simp only at hrun ⊢
        cases hmove : (if pausing then pauseMove data chunkSize written error poll
            else chunkMove data chunkSize chunkDelayMs written chunkEnd error poll) with
        | finish reported taken =>
            rw [hmove] at hrun hsound
            obtain rfl := Option.some.inj hrun
            exact hsound
        | go written chunkEnd error pausing taken =>
            rw [hmove] at hrun hsound
            exact ih hsound hrun

/-- The bytes which the driver took are the reported prefix of the request, and
a write without an error is complete. -/
theorem writeWithPacing_spec {data : Bytes} {pacing : WritePacing}
    {polls : List WriterPoll} {outcome : PortWriteOutcome}
    (hrun : (writeWithPacing data pacing polls).outcome = some outcome) :
    WriterReport data (writeWithPacing data pacing polls).accepted outcome := by
  refine writeChunks_spec (by omega) polls ?_ hrun
  exact ⟨by simp, by simp, by omega, by omega⟩

end SerialPlatform
