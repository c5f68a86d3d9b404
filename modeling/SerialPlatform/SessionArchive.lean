import SerialPlatform.GuardedRuns
import SerialPlatform.TerminalBatches

/-!
# The archive of a session

The parser of a port's stream and the archive which stores its rows each keep the
unfinished row.  A worker receives the batches of the parser, and the boundaries and
gaps at which the parser is reset.
-/

namespace SerialPlatform.Display

open FallibleState GuardedRuns

/-! ## The worker -/

/-- The texts of the console: the label of an event's source, the texts of the lines which
announce an event, and the label of a gap. -/
structure Texts where
  sourceLabel : TimelineEvent → String
  eventTexts : TimelineEvent → List (List Char)
  gapLabel : String

/-- `event_to_lines` and the label of the source. -/
def Texts.labels (texts : Texts) : Labels where
  sourceLabel := texts.sourceLabel
  eventToLines event :=
    (texts.eventTexts event).map fun text =>
      { continuesPrevious := false
        daemonEpoch := some event.daemonEpoch
        seq := event.seq
        eventKind := event.kind
        source := texts.sourceLabel event
        echoed := false
        text := text }

def gapLine (texts : Texts) (seq : ℕ) (text : List Char) : DisplayLine where
  continuesPrevious := false
  daemonEpoch := none
  seq := seq
  eventKind := .gap
  source := texts.gapLabel
  echoed := false
  text := text

inductive Message
  | append (batch : StreamDisplayBatch) (boundary : Bool)
  | gap (reason : List Char)
  | boundary

/-- The variables of `archive_worker`, with the rows it has written. -/
structure ArchiveWorker where
  rows : List DisplayLine
  pending : Option DisplayLine
  breakNextStream : Bool

namespace ArchiveWorker

def new : ArchiveWorker := ⟨[], none, false⟩

def writeRow (line : DisplayLine) (worker : ArchiveWorker) : ArchiveWorker :=
  { worker with rows := worker.rows ++ [line] }

/-- The pending row is written and forgotten. -/
def sealPending (worker : ArchiveWorker) : ArchiveWorker :=
  match worker.pending with
  | none => worker
  | some line => { worker with pending := none }.writeRow line

/-- The loop over the completed rows. -/
def writeCompleted : List DisplayLine → ArchiveWorker → ArchiveWorker
  | [], worker => worker
  | line :: rest, worker =>
      if worker.breakNextStream = true ∧ Streamed line.eventKind then
        writeCompleted rest
          ({ worker with breakNextStream := false }.writeRow { line with continuesPrevious := false })
      else writeCompleted rest (worker.writeRow line)

def epochChanged (batch : StreamDisplayBatch) (worker : ArchiveWorker) : Bool :=
  match worker.pending, batch.pending.or batch.completed.head? with
  | some old, some new => old.daemonEpoch ≠ new.daemonEpoch
  | _, _ => false

/-- `session stream continuity changed` -/
def continuityChanged : List Char := "session stream continuity changed".toList

def handle (texts : Texts) (message : Message) (worker : ArchiveWorker) : ArchiveWorker :=
  match message with
  | .append batch boundary =>
      let worker :=
        if boundary ∨ worker.epochChanged batch then
          let worker :=
            if batch.pendingCommitted then { worker with pending := none } else worker.sealPending
          worker.writeRow (gapLine texts 0 continuityChanged)
        else worker
      let worker := if batch.pendingCommitted then { worker with pending := none } else worker
      let worker := worker.writeCompleted batch.completed
      { worker with
        pending :=
          if worker.breakNextStream then
            batch.pending.map fun line => { line with continuesPrevious := false }
          else batch.pending }
  | .boundary => { worker.sealPending with breakNextStream := true }
  | .gap reason => worker.sealPending.writeRow (gapLine texts 0 reason)

end ArchiveWorker

/-- The archive: whether something was not recorded since the last batch, and the worker
with every message handled. -/
structure SessionArchive where
  interruptedStream : Bool
  worker : ArchiveWorker

namespace SessionArchive

def new : SessionArchive := ⟨false, .new⟩

def append (texts : Texts) (batch : StreamDisplayBatch) (archive : SessionArchive) :
    SessionArchive where
  interruptedStream := false
  worker := archive.worker.handle texts (.append batch archive.interruptedStream)

def recordGap (texts : Texts) (reason : List Char) (archive : SessionArchive) : SessionArchive :=
  { archive with worker := archive.worker.handle texts (.gap reason) }

def recordBoundary (texts : Texts) (archive : SessionArchive) : SessionArchive :=
  { archive with worker := archive.worker.handle texts .boundary }

end SessionArchive

/-! ## The console -/

/-- An event as the daemon emits it: bytes come with the kinds of received and sent bytes. -/
structure StreamEvent where
  event : TimelineEvent
  streamed : event.direction ≠ .none → Streamed event.kind

/-- What is recorded before the parser is reset. -/
inductive Cut
  | boundary
  | gap (reason : List Char)

inductive ArchiveAct
  /-- An event is pushed, and its batch appended. -/
  | push (event : StreamEvent)
  /-- The cuts are recorded, and then the parser is reset. -/
  | reset (first : Cut) (more : List Cut)
  /-- The capture reports a gap: it is recorded, and the parser goes on. -/
  | captureGap (reason : List Char)
  | setEchoReconciliation (enabled : Bool)

/-- A parser and its archive.  The rows which the parser completed, or was cut off from, are
kept by the streams of its terminal: those which were flushed or reset, and the current one. -/
structure RecordedStream where
  parser : TerminalStreamParser
  archive : SessionArchive
  ended : List (List DisplayLine)
  current : List DisplayLine

namespace RecordedStream

def start : RecordedStream := ⟨.new, .new, [], []⟩

/-- The completed rows of all batches, with the rows which a boundary or a gap cut off. -/
def shown (state : RecordedStream) : List DisplayLine := state.ended.flatten ++ state.current

/-- The rows of the streams, with the pending row of the current one. -/
def streams (state : RecordedStream) : List (List DisplayLine) :=
  state.ended ++ [state.current ++ state.parser.pendingLine.toList]

/-- The rows of the batch which belong to the stream before a flush. -/
def flushedLines (labels : Labels) (turns : ℕ) (event : TimelineEvent)
    (parser : TerminalStreamParser) : List DisplayLine :=
  if parser.flushesFirst event then
    match (TerminalStreamParser.flush turns).run.run parser with
    | (.ok lines, _) => lines
    | (.error _, _) => []
  else []

def record (texts : Texts) (archive : SessionArchive) : Cut → SessionArchive
  | .boundary => archive.recordBoundary texts
  | .gap reason => archive.recordGap texts reason

def step (texts : Texts) (turns : ℕ) (act : ArchiveAct) (state : RecordedStream) :
    Option RecordedStream :=
  match act with
  | .push pushed =>
      match (TerminalStreamParser.pushEvent texts.labels turns pushed.event).run.run state.parser with
      | (.error _, _) => none
      | (.ok batch, parser) =>
          let flushed := flushedLines texts.labels turns pushed.event state.parser
          let flushes := state.parser.flushesFirst pushed.event
          some
            { parser := parser
              archive := state.archive.append texts batch
              ended := if flushes then state.ended ++ [state.current ++ flushed] else state.ended
              current :=
                if flushes then batch.completed.drop flushed.length
                else state.current ++ batch.completed }
  | .reset first more =>
      some
        { parser := state.parser.reset
          archive := (first :: more).foldl (record texts) state.archive
          ended := state.ended ++ [state.current ++ state.parser.pendingLine.toList]
          current := [] }
  | .captureGap reason => some { state with archive := state.archive.recordGap texts reason }
  | .setEchoReconciliation enabled =>
      some { state with parser := state.parser.setEchoReconciliation enabled }

/-- A row which continues another one has a row of its stream before it. -/
def Joined (stream : List DisplayLine) : Prop :=
  ∀ before line after, stream = before ++ line :: after → line.continuesPrevious = true →
    ∃ earlier ∈ before, Streamed earlier.eventKind

/-- The archive agrees with the parser: without the gaps which the worker inserted, its rows
are those which were completed or cut off, its pending row is the parser's, and the rows
continue rows of their own stream. -/
structure Agrees (state : RecordedStream) : Prop where
  rows : state.archive.worker.rows.filter (fun line => line.daemonEpoch.isSome) = state.shown
  pending : state.archive.worker.pending = state.parser.pendingLine
  joined : ∀ stream ∈ state.streams, Joined stream

/-- The row which is pending would be lost: an event of another daemon epoch flushes the
parser, the flush returns no row, and of the event's bytes an unfinished row is left. -/
def losesRow (labels : Labels) (turns : ℕ) (event : TimelineEvent) (parser : TerminalStreamParser) :
    Bool :=
  decide (event.direction ≠ .none) &&
  decide (∃ old ∈ parser.pendingLine, old.daemonEpoch ≠ some event.daemonEpoch) &&
  match (TerminalStreamParser.flush turns).run.run parser with
  | (.error _, _) => false
  | (.ok lines, flushed) =>
      lines.isEmpty &&
      match (TerminalStreamParser.pushEvent labels turns event).run.run flushed with
      | (.error _, _) => false
      | (.ok batch, _) => batch.completed.isEmpty && batch.pending.isSome

/-- No row is lost, and no gap is reported while a row is pending. -/
def keepsRow (texts : Texts) (turns : ℕ) (act : ArchiveAct) (state : RecordedStream) : Bool :=
  match act with
  | .push pushed => !losesRow texts.labels turns pushed.event state.parser
  | .captureGap _ => state.parser.pendingLine.isNone
  | _ => true

end RecordedStream

end SerialPlatform.Display
