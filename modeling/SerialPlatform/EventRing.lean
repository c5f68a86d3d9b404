import SerialPlatform.Protocol

/-!
# The bounded ring of recent events

`EventRing` keeps the newest events of one port within an event and a byte
bound.  The byte estimate of an event depends on allocated capacities, so an
entry carries the estimate which was taken when the event was pushed.
-/

namespace SerialPlatform

structure RingEntry where
  event : TimelineEvent
  size : ℕ

structure EventRing where
  events : List RingEntry
  bytes : ℕ
  maxEvents : ℕ
  maxBytes : ℕ

inductive GapReason where
  | epochChanged
  | ringEvicted
  | retention
  | corruption
  | loggingFault
  | sequenceDiscontinuity
  deriving DecidableEq

structure ReplayGap where
  reason : GapReason
  requestedAfterSeq : Option ℕ
  firstAvailableSeq : Option ℕ
  deriving DecidableEq

structure ReplayWindow where
  events : List TimelineEvent
  gap : Option ReplayGap

inductive ReplayError where
  | cursorAhead (cursor head : ℕ)
  deriving DecidableEq

namespace EventRing

def new (maxEvents maxBytes : ℕ) : EventRing where
  events := []
  bytes := 0
  maxEvents := max maxEvents 1
  maxBytes := max maxBytes 1

/-- The eviction loop of `push`: the oldest entries leave until both bounds hold. -/
def evict (maxEvents maxBytes : ℕ) : List RingEntry → ℕ → List RingEntry × ℕ
  | [], bytes => ([], bytes)
  | entry :: rest, bytes =>
      if maxEvents < (entry :: rest).length ∨ maxBytes < bytes then
        evict maxEvents maxBytes rest (bytes - entry.size)
      else
        (entry :: rest, bytes)

def push (ring : EventRing) (event : TimelineEvent) (size : ℕ) : EventRing :=
  let kept := evict ring.maxEvents ring.maxBytes
    (ring.events ++ [{ event := event, size := size }]) (satAdd u64Max ring.bytes size)
  { ring with events := kept.1, bytes := kept.2 }

def timeline (ring : EventRing) : List TimelineEvent :=
  ring.events.map RingEntry.event

def oldestSeq (ring : EventRing) : Option ℕ :=
  ring.timeline.head?.map TimelineEvent.seq

def headSeq (ring : EventRing) : Option ℕ :=
  ring.timeline.getLast?.map TimelineEvent.seq

/-- Marks the newest entry of the sequence number. -/
def markDurableFirst (seq : ℕ) : List RingEntry → List RingEntry
  | [] => []
  | entry :: rest =>
      if entry.event.seq = seq then
        { entry with event := { entry.event with durable := true } } :: rest
      else
        entry :: markDurableFirst seq rest

/-- The source searches backwards from the tail. -/
def markDurable (ring : EventRing) (seq : ℕ) : EventRing :=
  { ring with events := (markDurableFirst seq ring.events.reverse).reverse }

/-- The newest `tailEvents` events at or below the head. -/
def replayTail (ring : EventRing) (headSeq tailEvents : ℕ) : List TimelineEvent :=
  let boundedTail := max 1 (min tailEvents ring.maxEvents)
  let eligible := ring.timeline.filter fun event => event.seq ≤ headSeq
  eligible.drop (eligible.length - boundedTail)

def replay (ring : EventRing) (daemonEpoch : Uuid) (cursor : Option Cursor)
    (headSeq tailEvents : ℕ) : Except ReplayError ReplayWindow :=
  match cursor with
  | none => .ok { events := ring.replayTail headSeq tailEvents, gap := none }
  | some cursor =>
      if cursor.epoch ≠ daemonEpoch then
        .ok {
          events := ring.replayTail headSeq tailEvents
          gap := some {
            reason := .epochChanged
            requestedAfterSeq := some cursor.afterSeq
            firstAvailableSeq := ring.oldestSeq } }
      else if headSeq < cursor.afterSeq then
        .error (.cursorAhead cursor.afterSeq headSeq)
      else if cursor.afterSeq = headSeq then
        .ok { events := [], gap := none }
      else if ∀ first, ring.oldestSeq = some first →
          satAdd u64Max cursor.afterSeq 1 < first then
        .ok {
          events := ring.replayTail headSeq tailEvents
          gap := some {
            reason := .ringEvicted
            requestedAfterSeq := some cursor.afterSeq
            firstAvailableSeq := ring.oldestSeq } }
      else
        .ok {
          events := ring.timeline.filter fun event =>
            cursor.afterSeq < event.seq ∧ event.seq ≤ headSeq
          gap := none }

end EventRing
end SerialPlatform
