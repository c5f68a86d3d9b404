import SerialPlatform.JournalQuery
import SerialPlatform.SlotTimeline

/-!
# The live tail of a port

The current tail is answered from the ring alone.  The snapshot is taken before
the ring is read, so the ring may be ahead of the head which bounds the answer.
-/

namespace SerialPlatform

open Journal (GapRange EventQueryResponse)

/-- The largest `usize`. -/
def usizeMax : ℕ := 2 ^ 64 - 1

/-- What the live tail reads of a `SlotSnapshot`. -/
structure TailSnapshot where
  daemonEpoch : Uuid
  headSeq : ℕ
  ringOldestSeq : Option ℕ
  deriving DecidableEq

structure AttachState where
  snapshot : TailSnapshot
  replay : ReplayWindow

def clampTailEvents (tailEvents : Option ℕ) : ℕ := max 1 (min (tailEvents.getD 200) 2000)

/-- The range of a gap, which has at least one number. -/
def liveGapRange (attach : AttachState) (cursor : Option Cursor) (gap : ReplayGap) : GapRange :=
  let firstSeq := satAdd u64Max (gap.requestedAfterSeq.getD 0) 1
  let lastSeq := max
    (match gap.firstAvailableSeq with
      | some firstAvailable => firstAvailable - 1
      | none => attach.snapshot.headSeq) firstSeq
  { epoch := (cursor.map Cursor.epoch).getD attach.snapshot.daemonEpoch
    firstSeq := firstSeq
    lastSeq := lastSeq
    reason := gap.reason }

def boundedLiveResponse (attach : AttachState) (cursor : Option Cursor) (tailEvents : ℕ) :
    EventQueryResponse :=
  let windowLimited := cursor.isSome && decide (tailEvents < attach.replay.events.length)
  let events :=
    if windowLimited then attach.replay.events.take tailEvents else attach.replay.events
  let nextAfterSeq :=
    if windowLimited then
      (events.getLast?.map TimelineEvent.seq).getD attach.snapshot.headSeq
    else
      attach.snapshot.headSeq
  { events := events
    nextCursor := some { epoch := attach.snapshot.daemonEpoch, afterSeq := nextAfterSeq }
    truncated := windowLimited || attach.replay.gap.isSome
    firstAvailableSeq := attach.snapshot.ringOldestSeq
    gaps := (attach.replay.gap.map (liveGapRange attach cursor)).toList }

/-- `attach`, with the ring as it is when its lock is taken. -/
def attachRing (snapshot : TailSnapshot) (ring : EventRing) (cursor : Option Cursor)
    (tailEvents : ℕ) : Except ReplayError AttachState := do
  let replay ← ring.replay snapshot.daemonEpoch cursor snapshot.headSeq tailEvents
  return { snapshot := snapshot, replay := replay }

/-- `live_tail` of a port which exists.  With a cursor the whole ring is replayed and
paged afterwards. -/
def liveTail (snapshot : TailSnapshot) (ring : EventRing) (cursor : Option Cursor)
    (tailEvents : Option ℕ) : Except ReplayError EventQueryResponse := do
  let tailEvents := clampTailEvents tailEvents
  let replayEvents := if cursor.isSome then usizeMax else tailEvents
  let attach ← attachRing snapshot ring cursor replayEvents
  return boundedLiveResponse attach cursor tailEvents

/-! ## A port that goes on -/

/-- The ring of a port, its counter and the last published snapshot. -/
structure TailWorld where
  daemonEpoch : Uuid
  ring : EventRing
  seq : ℕ
  published : TailSnapshot

inductive TailStep where
  /-- an event takes the next number and enters the ring; what is too much leaves it -/
  | append (event : TimelineEvent) (size : ℕ)
  | publish
  /-- a late acknowledgement marks an event -/
  | markDurable (seq : ℕ)

def TailStep.isAppend : TailStep → Bool
  | .append .. => true
  | _ => false

namespace TailWorld

def start (daemonEpoch : Uuid) (maxEvents maxBytes : ℕ) : TailWorld where
  daemonEpoch := daemonEpoch
  ring := EventRing.new maxEvents maxBytes
  seq := 0
  published := { daemonEpoch := daemonEpoch, headSeq := 0, ringOldestSeq := none }

def step (world : TailWorld) : TailStep → TailWorld
  | .append event size =>
      let seq := satAdd u64Max world.seq 1
      { world with seq := seq, ring := world.ring.push { event with seq := seq } size }
  | .publish =>
      { world with
        published := {
          daemonEpoch := world.daemonEpoch
          headSeq := world.seq
          ringOldestSeq := world.ring.oldestSeq } }
  | .markDurable seq => { world with ring := world.ring.markDurable seq }

def run (world : TailWorld) (steps : List TailStep) : TailWorld :=
  steps.foldl step world

end TailWorld

/-! ## Following a cursor -/

/-- One call: what happens before it, and between its snapshot and its look at the ring. -/
structure TailCall where
  before : List TailStep
  between : List TailStep
  tailEvents : Option ℕ

/-- Calls which follow the cursor of the answer before. -/
def followTail : List TailCall → TailWorld → Cursor →
    Except ReplayError (List EventQueryResponse × TailWorld × Cursor)
  | [], world, cursor => .ok ([], world, cursor)
  | call :: calls, world, cursor => do
      let world := world.run call.before
      let snapshot := world.published
      let world := world.run call.between
      let page ← liveTail snapshot world.ring (some cursor) call.tailEvents
      let rest ← followTail calls world (page.nextCursor.getD cursor)
      return (page :: rest.1, rest.2)

namespace SlotActor

/-- The part of an actor which the live tail reads. -/
def tailWorld (s : SlotActor) : TailWorld where
  daemonEpoch := s.daemonEpoch
  ring := s.timeline.ring
  seq := s.timeline.seq
  published := {
    daemonEpoch := s.published.daemonEpoch
    headSeq := s.published.headSeq
    ringOldestSeq := s.published.ringOldestSeq }

end SlotActor
end SerialPlatform
