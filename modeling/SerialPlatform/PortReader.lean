import SerialPlatform.PortWriter

/-!
# The port reader

The sole reader of a serial handle coalesces what the driver delivers and offers
it to a bounded queue.  What the driver, the queue and the timers do is a list of
polls; the reader loop is a function of that list.  Bytes which find the queue
full are counted instead of queued.
-/

namespace SerialPlatform

/-- `RX_BUFFER_BYTES`. -/
def rxBufferBytes : ℕ := 4 * 1024

inductive PortEvent where
  | rx (data : Bytes)
  | overflow (droppedBytes : ℕ)
  | closed (reason : String) (droppedBytes : ℕ)
  | readerBarrier (id : Uuid)
  deriving DecidableEq

/-- What the reader still holds when it stops. -/
structure ReaderTail where
  pending : Bytes := []
  droppedBytes : ℕ := 0

/-- How the bounded queue answers `try_send`. -/
inductive QueueAnswer where
  | sent
  | full
  | closed
  deriving DecidableEq

/-- The answers to the at most two sends of one `enqueue_rx`. -/
structure EnqueueAnswers where
  overflow : QueueAnswer
  rx : QueueAnswer
  deriving DecidableEq

structure ReaderState where
  queued : List PortEvent := []
  pending : Bytes := []
  droppedBytes : ℕ := 0
  /-- every byte which the driver delivered -/
  received : Bytes := []

def ReaderState.send (reader : ReaderState) (event : PortEvent) : ReaderState :=
  { reader with queued := reader.queued ++ [event] }

/-- The second half of `enqueue_rx`: the pending bytes leave as one event. -/
def enqueuePending (answer : QueueAnswer) (reader : ReaderState) : ReaderState :=
  if reader.pending = [] then
    reader
  else
    match answer with
    | .sent => { reader.send (.rx reader.pending) with pending := [] }
    | .full =>
        { reader with
          pending := []
          droppedBytes := satAdd u64Max reader.droppedBytes reader.pending.length }
    | .closed => { reader with pending := [] }

def enqueueRx (answers : EnqueueAnswers) (reader : ReaderState) : ReaderState :=
  if 0 < reader.droppedBytes then
    match answers.overflow with
    | .sent =>
        enqueuePending answers.rx
          { reader.send (.overflow reader.droppedBytes) with droppedBytes := 0 }
    | .closed => { reader with pending := [] }
    | .full =>
        { reader with
          droppedBytes := satAdd u64Max reader.droppedBytes reader.pending.length
          pending := [] }
  else
    enqueuePending answers.rx reader

def rxReadCapacity (pendingLen : ℕ) : ℕ := rxBufferBytes - pendingLen

/-- What ends one wait of the reader loop.  A send which waits for room reports
whether it went through before the port was cancelled. -/
inductive ReaderEvent where
  | commandsClosed
  | barrier (id : Uuid) (overflowSent barrierSent : Bool)
  | cancelChanged (cancelled : Bool)
  | flush
  | read (data : Bytes) (closedSent : Bool)
  | failed (message : String) (closedSent : Bool)
  | writerFailed (reason : String)

structure ReaderPoll where
  /-- the flush at the top of the loop -/
  top : EnqueueAnswers
  event : ReaderEvent
  /-- the flush inside the branch -/
  branch : EnqueueAnswers

/-- What one turn of the reader loop leaves. -/
inductive ReaderMove where
  | go (reader : ReaderState)
  | stop (reader : ReaderState) (tail : ReaderTail)

def ReaderState.tail (reader : ReaderState) : ReaderTail :=
  { pending := reader.pending, droppedBytes := reader.droppedBytes }

/-- The last flush and the close notification. -/
def sendPortClosed (answers : EnqueueAnswers) (reason : String) (sent : Bool)
    (reader : ReaderState) : ReaderMove :=
  let reader := enqueueRx answers reader
  if sent then
    .stop (reader.send (.closed reason reader.droppedBytes)) {}
  else
    .stop reader reader.tail

def readerBarrier (answers : EnqueueAnswers) (id : Uuid) (overflowSent barrierSent : Bool)
    (reader : ReaderState) : ReaderMove :=
  let reader := enqueueRx answers reader
  if 0 < reader.droppedBytes then
    if overflowSent then
      let reader :=
        { reader.send (.overflow reader.droppedBytes) with droppedBytes := 0 }
      if barrierSent then .go (reader.send (.readerBarrier id)) else .stop reader reader.tail
    else
      .stop reader reader.tail
  else if barrierSent then
    .go (reader.send (.readerBarrier id))
  else
    .stop reader reader.tail

def readerRead (answers : EnqueueAnswers) (data : Bytes) (closedSent : Bool)
    (reader : ReaderState) : ReaderMove :=
  let chunk := data.take (rxReadCapacity reader.pending.length)
  if chunk = [] then
    sendPortClosed answers "serial port reached EOF" closedSent reader
  else
    let reader :=
      { reader with
        pending := reader.pending ++ chunk
        received := reader.received ++ chunk }
    if rxBufferBytes ≤ reader.pending.length then
      .go (enqueueRx answers reader)
    else
      .go reader

/-- One turn of the loop of `run_port_reader`. -/
def readerMove (poll : ReaderPoll) (reader : ReaderState) : ReaderMove :=
  let reader :=
    if rxBufferBytes ≤ reader.pending.length then enqueueRx poll.top reader else reader
  match poll.event with
  | .commandsClosed => .stop reader reader.tail
  | .barrier id overflowSent barrierSent =>
      readerBarrier poll.branch id overflowSent barrierSent reader
  | .cancelChanged true => .stop reader reader.tail
  | .cancelChanged false => .go reader
  | .flush => .go (enqueueRx poll.branch reader)
  | .read data closedSent => readerRead poll.branch data closedSent reader
  | .failed message closedSent => sendPortClosed poll.branch message closedSent reader
  | .writerFailed reason => .go (reader.send (.closed reason 0))

structure ReaderRun where
  queued : List PortEvent
  tail : ReaderTail
  received : Bytes

/-- The loop of `run_port_reader`.  The list ends where the port is stopped. -/
def runPortReader : List ReaderPoll → ReaderState → ReaderRun
  | [], reader =>
      { queued := reader.queued, tail := reader.tail, received := reader.received }
  | poll :: polls, reader =>
      match readerMove poll reader with
      | .go reader => runPortReader polls reader
      | .stop reader tail =>
          { queued := reader.queued, tail := tail, received := reader.received }

/-- What the two workers of one open handle will do.  The actor joins the reader
before it drops the receiving end, so the reader never finds its queue closed. -/
structure PortSession where
  polls : List ReaderPoll
  /-- close reports of the writer after the reader stopped -/
  lateReasons : List String
  queueOpen : ∀ poll ∈ polls, poll.top.overflow ≠ .closed ∧ poll.top.rx ≠ .closed ∧
    poll.branch.overflow ≠ .closed ∧ poll.branch.rx ≠ .closed

def PortSession.run (session : PortSession) : ReaderRun :=
  let run := runPortReader session.polls {}
  { run with
    queued := run.queued ++ session.lateReasons.map fun reason => .closed reason 0 }

end SerialPlatform
