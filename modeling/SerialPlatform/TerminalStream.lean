import SerialPlatform.FallibleState
import SerialPlatform.TerminalBounds

/-!
# The parser of a port's stream

The bytes of a port's events, with the echo of its own writes suppressed, are fed
to one terminal.  An act fails when the terminal does not return within its turns,
and `fed` records every byte with the terminal it met.
-/

namespace SerialPlatform.Display

open TerminalText FallibleState

/-- `MAX_EXPECTED_ECHO_BYTES` -/
def maxExpectedEchoBytes : ℕ := 64 * 1024

/-- `MAX_EXPECTED_ECHO_SEGMENTS` -/
def maxExpectedEchoSegments : ℕ := 1024

def eraseEcho : Bytes := [0x08, 0x20, 0x08]

def echoHardWrap : Bytes := [0x0d, 0x0d, 0x0a]

/-! ## Expected echoes -/

structure EchoExpectation where
  bytes : Bytes
  acceptEraseEcho : Bool
  searchStarted : Bool

inductive EchoCandidateMatch
  | full
  | prefixMatch
  | mismatch
  deriving DecidableEq

namespace EchoExpectation

def new (bytes : Bytes) : EchoExpectation := ⟨bytes, bytes = [0x7f], false⟩

def canAppend (expectation : EchoExpectation) (bytes : Bytes) : Bool :=
  !expectation.searchStarted && !expectation.acceptEraseEcho &&
    !(expectation.bytes.getLast? == some 0x0d || expectation.bytes.getLast? == some 0x0a) &&
    !bytes.any (fun byte => byte == 0x08 || byte == 0x7f)

def append (expectation : EchoExpectation) (bytes : Bytes) : EchoExpectation :=
  { expectation with bytes := expectation.bytes ++ bytes }

/-- The loop of `match_candidate`: what is left to read, with `expected` bytes matched. -/
def matchFrom (bytes : Bytes) (expected : ℕ) (candidate : Bytes) : EchoCandidateMatch :=
  match candidate with
  | [] => if expected = bytes.length then .full else .prefixMatch
  | actual :: rest =>
      if bytes[expected]? = some actual then matchFrom bytes (expected + 1) rest
      else if 0 < expected ∧ expected < bytes.length then
        if (actual :: rest).isPrefixOf echoHardWrap then .prefixMatch
        else if echoHardWrap.isPrefixOf (actual :: rest) then matchFrom bytes expected (rest.drop 2)
        else .mismatch
      else .mismatch
  termination_by candidate.length
  decreasing_by all_goals simp

def matchCandidate (expectation : EchoExpectation) (candidate : Bytes) : EchoCandidateMatch :=
  if expectation.acceptEraseEcho then
    if candidate = expectation.bytes ∨ candidate = [0x08] ∨ candidate = eraseEcho then .full
    else if candidate.isPrefixOf expectation.bytes ∨ candidate.isPrefixOf eraseEcho then .prefixMatch
    else .mismatch
  else matchFrom expectation.bytes 0 candidate

def endsInCr (expectation : EchoExpectation) : Bool := expectation.bytes.getLast? == some 0x0d

def startsInLf (expectation : EchoExpectation) : Bool := expectation.bytes.head? == some 0x0a

end EchoExpectation

/-! ## Lines -/

structure StreamIdentity where
  daemonEpoch : Uuid
  generation : ℕ
  deriving DecidableEq

structure LineContext where
  identity : StreamIdentity
  seq : ℕ
  operationId : Option Uuid
  source : String
  direction : Direction
  kind : EventKind
  actorKind : Option ActorKind
  echoed : Bool

structure DisplayLine where
  continuesPrevious : Bool
  daemonEpoch : Option Uuid
  seq : ℕ
  eventKind : EventKind
  source : String
  echoed : Bool
  text : List Char

/-- The texts of the interface: the label of an event's source and the lines which
announce an event. -/
structure Labels where
  sourceLabel : TimelineEvent → String
  eventToLines : TimelineEvent → List DisplayLine

namespace LineContext

def fromEvent (labels : Labels) (event : TimelineEvent) : LineContext where
  identity := ⟨event.daemonEpoch, event.generation⟩
  seq := event.seq
  operationId := event.operationId
  source := labels.sourceLabel event
  direction := event.direction
  kind := event.kind
  actorKind := event.actor.map Actor.kind
  echoed := false

def adoptTx (context incoming : LineContext) : LineContext :=
  { context with
    seq := incoming.seq
    operationId := incoming.operationId
    source := incoming.source
    direction := incoming.direction
    kind := incoming.kind
    actorKind := incoming.actorKind
    echoed := false }

def displayLine (context : LineContext) (row : ProjectedRow) : DisplayLine where
  continuesPrevious := row.continuesPrevious
  daemonEpoch := some context.identity.daemonEpoch
  seq := context.seq
  eventKind := context.kind
  source := context.source
  echoed := context.echoed
  text := row.text

end LineContext

structure StreamDisplayBatch where
  completed : List DisplayLine
  pending : Option DisplayLine
  pendingCommitted : Bool

def terminalBoundary (kind : EventKind) : Bool :=
  kind ∈ [EventKind.serialOpening, .serialOpened, .serialOpenFailed, .serialClosed, .portRemoved,
    .gap]

def visibleTerminalAnnotation (kind : EventKind) : Bool :=
  kind ∈ [EventKind.runStarted, .runEnded, .runAborted, .uartBreak, .triggerStarted,
    .triggerCompleted, .triggerCancelled, .triggerFailed]

/-! ## The parser -/

structure TerminalStreamParser where
  terminal : TerminalText
  context : Option LineContext
  reconcileEcho : Bool
  expectedEchoes : List EchoExpectation
  expectedEchoBytes : ℕ
  echoCandidate : Bytes
  abandonedRx : Bytes
  echoCandidateContext : Option LineContext
  swallowOptionalEchoLf : Bool
  txLineEndPending : Bool
  /-- The bytes which the terminal consumed, or does not return from. -/
  fed : List (TerminalText × UInt8)

inductive EchoDisposition
  | suppressed (expectationComplete : Bool)
  | visible (bytes : Bytes)

namespace TerminalStreamParser

abbrev Act (α : Type) := ExceptT Unit (StateM TerminalStreamParser) α

def new : TerminalStreamParser where
  terminal := TerminalText.default
  context := none
  reconcileEcho := false
  expectedEchoes := []
  expectedEchoBytes := 0
  echoCandidate := []
  abandonedRx := []
  echoCandidateContext := none
  swallowOptionalEchoLf := false
  txLineEndPending := false
  fed := []

def setEchoReconciliation (enabled : Bool) (parser : TerminalStreamParser) :
    TerminalStreamParser :=
  if parser.reconcileEcho = enabled then parser
  else
    { parser with
      reconcileEcho := enabled
      abandonedRx :=
        if enabled then parser.abandonedRx else parser.abandonedRx ++ parser.echoCandidate
      echoCandidate := if enabled then parser.echoCandidate else []
      expectedEchoes := []
      expectedEchoBytes := 0
      swallowOptionalEchoLf := false }

def reset (parser : TerminalStreamParser) : TerminalStreamParser :=
  { parser with
    terminal := TerminalText.default
    context := none
    expectedEchoes := []
    expectedEchoBytes := 0
    echoCandidate := []
    abandonedRx := []
    echoCandidateContext := none
    swallowOptionalEchoLf := false
    txLineEndPending := false }

def pendingLine (parser : TerminalStreamParser) : Option DisplayLine := do
  let context ← parser.context
  let text ← parser.terminal.pendingText
  some (context.displayLine ⟨text, parser.terminal.continuesPrevious⟩)

/-- `terminal.consume` with an empty vector for the rows. -/
def consumeByte (turns : ℕ) (byte : UInt8) : Act (List ProjectedRow) := do
  let parser ← get
  modify fun parser => { parser with fed := parser.fed ++ [(parser.terminal, byte)] }
  match TerminalText.consume byte { parser.terminal with rows := [] } turns with
  | none => throw ()
  | some terminal => do
      modify fun parser => { parser with terminal := terminal }
      pure terminal.rows

/-- `terminal.finish_input` -/
def finishRows (turns : ℕ) : Act (List ProjectedRow) := do
  let parser ← get
  match TerminalText.finishInput { parser.terminal with rows := [] } turns with
  | none => throw ()
  | some terminal => do
      modify fun parser => { parser with terminal := terminal }
      pure terminal.rows

/-- The rows as lines of the current context, which the incoming one then follows. -/
def showRows (incoming : LineContext) (rows : List ProjectedRow) : Act (List DisplayLine) := do
  let parser ← get
  let context := parser.context.getD incoming
  modify fun parser => { parser with context := some incoming }
  pure (rows.map context.displayLine)

def commitPendingRow (turns : ℕ) (incoming : LineContext) : Act (List DisplayLine) := do
  modify fun parser => { parser with txLineEndPending := false }
  let rows ← consumeByte turns 0x0a
  showRows incoming rows

def feedVisibleByte (turns : ℕ) (incoming : LineContext) (byte : UInt8) :
    Act (List DisplayLine) := do
  let parser ← get
  let committed ←
    (if parser.txLineEndPending ∧ byte ≠ 0x0d ∧ byte ≠ 0x0a then commitPendingRow turns incoming
    else pure [])
  let rows ← consumeByte turns byte
  modify fun parser =>
    { parser with
      txLineEndPending :=
        if byte = 0x0a then false
        else if incoming.direction = .tx ∧ byte = 0x0d then true
        else parser.txLineEndPending }
  if rows = [] then pure committed
  else do
    let lines ← showRows incoming rows
    pure (committed ++ lines)

def feedVisibleBytes (turns : ℕ) (incoming : LineContext) : Bytes → Act (List DisplayLine)
  | [] => pure []
  | byte :: rest => do
      let lines ← feedVisibleByte turns incoming byte
      let later ← feedVisibleBytes turns incoming rest
      pure (lines ++ later)

def replayBufferedRx (turns : ℕ) (replay : Bytes) (fallback : LineContext) :
    Act (List DisplayLine) := do
  let parser ← get
  let incoming := parser.echoCandidateContext.getD fallback
  modify fun parser => { parser with echoCandidateContext := none }
  let committed ←
    (if (∃ current ∈ parser.context, current.direction = .tx) ∧ incoming.direction = .rx ∧
        parser.terminal.pendingText.isSome then
      commitPendingRow turns incoming
    else pure [])
  let lines ← feedVisibleBytes turns incoming replay
  pure (committed ++ lines)

def replayEchoCandidate (turns : ℕ) : Act (List DisplayLine) := do
  let parser ← get
  modify fun parser => { parser with abandonedRx := [], echoCandidate := [] }
  match parser.abandonedRx ++ parser.echoCandidate, parser.context with
  | [], _ => pure []
  | _, none => pure []
  | replay, some fallback => replayBufferedRx turns replay fallback

def flush (turns : ℕ) : Act (List DisplayLine) := do
  let lines ← replayEchoCandidate turns
  let rows ← finishRows turns
  let parser ← get
  modify reset
  match parser.context with
  | none => pure lines
  | some context =>
      pure (lines ++ rows.map context.displayLine ++
        parser.terminal.takePending.1.toList.map context.displayLine)

/-- A mismatch gives the whole candidate back. -/
def reconcileRxByte (byte : UInt8) (incoming : LineContext) (parser : TerminalStreamParser) :
    EchoDisposition × TerminalStreamParser :=
  if ¬ parser.reconcileEcho then (.visible [byte], parser)
  else if parser.swallowOptionalEchoLf ∧ byte = 0x0a then
    (.suppressed false, { parser with swallowOptionalEchoLf := false })
  else
    match parser.expectedEchoes with
    | [] => (.visible [byte], { parser with swallowOptionalEchoLf := false })
    | expectation :: rest =>
        let candidate := parser.echoCandidate ++ [byte]
        match expectation.matchCandidate candidate with
        | .full =>
            let expectationComplete := rest.isEmpty
            let nextStartsInLf := (rest.head?.map EchoExpectation.startsInLf).getD false
            (.suppressed expectationComplete,
              { parser with
                echoCandidate := []
                echoCandidateContext := none
                expectedEchoes := rest
                expectedEchoBytes := parser.expectedEchoBytes - expectation.bytes.length
                swallowOptionalEchoLf := expectation.endsInCr && !nextStartsInLf &&
                  (!expectationComplete || !parser.txLineEndPending) })
        | .prefixMatch =>
            (.suppressed false,
              { parser with
                echoCandidate := candidate
                echoCandidateContext := some incoming
                expectedEchoes := { expectation with searchStarted := true } :: rest
                swallowOptionalEchoLf := false })
        | .mismatch =>
            (.visible candidate,
              { parser with
                echoCandidate := []
                echoCandidateContext := none
                expectedEchoes := []
                expectedEchoBytes := 0
                swallowOptionalEchoLf := false })

/-- The context of the event's own bytes. -/
def adoptContext (event : TimelineEvent) (incoming : LineContext) (parser : TerminalStreamParser) :
    TerminalStreamParser :=
  match parser.context with
  | none => { parser with context := some incoming }
  | some current =>
      if parser.terminal.pendingText.isSome then
        let current := { current with seq := event.seq }
        { parser with
          context := some (if event.direction = .tx then current.adoptTx incoming else current) }
      else { parser with context := some incoming }

/-- A write with echo reconciliation is expected back. -/
def expectEcho (event : TimelineEvent) (parser : TerminalStreamParser) : TerminalStreamParser :=
  if event.direction = .tx ∧ parser.reconcileEcho ∧ event.data ≠ [] then
    let canExtendTail :=
      (parser.expectedEchoes.getLast?.map (fun tail => tail.canAppend event.data)).getD false
    if satAdd u64Max parser.expectedEchoBytes event.data.length ≤ maxExpectedEchoBytes ∧
        (canExtendTail ∨ parser.expectedEchoes.length < maxExpectedEchoSegments) then
      { parser with
        expectedEchoBytes := parser.expectedEchoBytes + event.data.length
        expectedEchoes :=
          if canExtendTail then
            parser.expectedEchoes.dropLast ++
              (parser.expectedEchoes.getLast?.map (fun tail => tail.append event.data)).toList
          else parser.expectedEchoes ++ [EchoExpectation.new event.data] }
    else
      { parser with
        abandonedRx := parser.abandonedRx ++ parser.echoCandidate
        echoCandidate := []
        expectedEchoes := []
        expectedEchoBytes := 0
        swallowOptionalEchoLf := false }
  else parser

/-- One byte of an event. -/
def projectByte (turns : ℕ) (direction : Direction) (incoming : LineContext) (byte : UInt8) :
    Act (List DisplayLine) :=
  if direction = .rx then do
    let parser ← get
    let reconciled := parser.reconcileRxByte byte incoming
    modify fun _ => reconciled.2
    match reconciled.1 with
    | .suppressed expectationComplete => do
        modify fun parser =>
          if expectationComplete then
            { parser with
              context := parser.context.map (fun context => { context with echoed := true }) }
          else parser
        pure []
    | .visible bytes => feedVisibleBytes turns incoming bytes
  -- a local erase is shown as the terminal of a Linux target echoes it
  else if byte = 0x08 ∨ byte = 0x7f then feedVisibleBytes turns incoming eraseEcho
  else feedVisibleByte turns incoming byte

def projectBytes (turns : ℕ) (direction : Direction) (incoming : LineContext) :
    Bytes → Act (List DisplayLine)
  | [] => pure []
  | byte :: rest => do
      let lines ← projectByte turns direction incoming byte
      let later ← projectBytes turns direction incoming rest
      pure (lines ++ later)

def replayAbandoned (turns : ℕ) (incoming : LineContext) : Act (List DisplayLine) := do
  let parser ← get
  if parser.abandonedRx = [] then pure []
  else do
    modify fun parser => { parser with abandonedRx := [] }
    replayBufferedRx turns parser.abandonedRx incoming

def pushEvent (labels : Labels) (turns : ℕ) (event : TimelineEvent) : Act StreamDisplayBatch := do
  let parser ← get
  let hadPending := parser.pendingLine.isSome
  if event.direction = .none then
    if terminalBoundary event.kind then do
      let lines ← flush turns
      pure ⟨lines ++ labels.eventToLines event, none, hadPending⟩
    else
      pure ⟨if visibleTerminalAnnotation event.kind then labels.eventToLines event else [],
        parser.pendingLine, false⟩
  else do
    let incoming := LineContext.fromEvent labels event
    let flushed ←
      (if ∃ current ∈ parser.context, current.identity ≠ incoming.identity then flush turns
      else pure [])
    let replayed ← replayAbandoned turns incoming
    modify (adoptContext event incoming)
    modify (expectEcho event)
    let shown ← projectBytes turns event.direction incoming event.data
    let completed := flushed ++ replayed ++ shown
    let parser ← get
    pure ⟨completed, parser.pendingLine, hadPending && !completed.isEmpty⟩

/-- What the owner of a parser does with it. -/
inductive Call
  | setEchoReconciliation (enabled : Bool)
  | pushEvent (event : TimelineEvent)
  | flush
  | reset

def call (labels : Labels) (turns : ℕ) : Call → Act Unit
  | .setEchoReconciliation enabled => modify (setEchoReconciliation enabled)
  | .pushEvent event => discard (pushEvent labels turns event)
  | .flush => discard (flush turns)
  | .reset => modify reset

def callAll (labels : Labels) (turns : ℕ) : List Call → Act Unit
  | [] => pure ()
  | first :: rest => do
      call labels turns first
      callAll labels turns rest

end TerminalStreamParser

end SerialPlatform.Display
