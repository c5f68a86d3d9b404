import SerialPlatform.CommandEcho

/-!
# The boundary of a captured command

The tracker decides which events of the timeline belong to the output of a
command.  RX behind the command's TX is buffered until the echo is complete;
the echo is then cut off, or kept when its match is ambiguous.  Nothing else of
the received stream is lost, except from its front.
-/

namespace SerialPlatform

/-- The size of an event in the buffer. -/
def TimelineEvent.bufferedBytes (event : TimelineEvent) : ℕ :=
  satAdd u64Max event.data.length 256

/-- The event without the first bytes of its data. -/
def TimelineEvent.cut (event : TimelineEvent) (removed : ℕ) : TimelineEvent :=
  { event with
    data := event.data.drop removed
    streamOffsetStart := event.streamOffsetStart.map fun start => satAdd u64Max start removed }

namespace Capture

structure CommandBoundary where
  txEventSeq : ℕ
  operationId : Uuid
  expectedEcho : Option Bytes

structure CaptureLimits where
  maxEvents : ℕ
  maxBytes : ℕ

structure CaptureActivity where
  firstSeq : Option ℕ
  throughSeq : Option ℕ
  eventCount : ℕ
  rxEventCount : ℕ
  rxByteCount : ℕ
  txEventCount : ℕ

def CaptureActivity.default : CaptureActivity := ⟨none, none, 0, 0, 0, 0⟩

def CaptureActivity.observe (activity : CaptureActivity) (event : TimelineEvent) :
    CaptureActivity :=
  let seen := {
    activity with
    firstSeq := activity.firstSeq.or (some event.seq)
    throughSeq := some event.seq
    eventCount := satAdd u64Max activity.eventCount 1 }
  match event.direction with
  | .rx => {
      seen with
      rxEventCount := satAdd u64Max activity.rxEventCount 1
      rxByteCount := satAdd u64Max activity.rxByteCount event.data.length }
  | .tx => { seen with txEventCount := satAdd u64Max activity.txEventCount 1 }
  | .none => seen

structure CommandBoundaryResult where
  prewriteActivity : CaptureActivity
  txAuditObserved : Bool
  echoRequired : Bool
  echoObserved : Bool
  ambiguousEchoRetained : Bool
  discardedRxEventCount : ℕ
  discardedRxByteCount : ℕ
  interfered : Bool

structure AcceptedEvents where
  events : List TimelineEvent
  matchingRx : Bytes
  observedQuietActivity : Bool
  resetMatching : Bool

/-- The bytes of events, in order. -/
def dataOf (events : List TimelineEvent) : Bytes := events.flatMap TimelineEvent.data

def rxOf (events : List TimelineEvent) : List TimelineEvent :=
  events.filter fun event => event.direction = .rx

namespace AcceptedEvents

def single (event : TimelineEvent) : AcceptedEvents :=
  let rx := decide (event.direction = .rx)
  ⟨[event], if rx then event.data else [], rx, false⟩

def none : AcceptedEvents := ⟨[], [], false, false⟩

def pendingRx (data : Bytes) : AcceptedEvents := ⟨[], data, !data.isEmpty, true⟩

def afterEcho (events : List TimelineEvent) : AcceptedEvents :=
  let matchingRx := dataOf (rxOf events)
  ⟨events, matchingRx, !matchingRx.isEmpty, true⟩

def afterRetainedEcho (events : List TimelineEvent) (matchingRx : Bytes) : AcceptedEvents :=
  ⟨events, matchingRx, !matchingRx.isEmpty, true⟩

end AcceptedEvents

structure CommandBoundaryTracker where
  boundary : CommandBoundary
  limits : CaptureLimits
  armed : Bool
  pendingRx : List TimelineEvent
  pendingBytes : ℕ
  prewriteActivity : CaptureActivity
  txAuditObserved : Bool
  echoObserved : Bool
  ambiguousEchoRetained : Bool
  discardedRxEventCount : ℕ
  discardedRxByteCount : ℕ
  interfered : Bool
  throughSeq : Option ℕ
  truncated : Bool

namespace CommandBoundaryTracker

def new (boundary : CommandBoundary) (limits : CaptureLimits) : CommandBoundaryTracker where
  boundary := boundary
  limits := limits
  armed := boundary.expectedEcho.isNone
  pendingRx := []
  pendingBytes := 0
  prewriteActivity := .default
  txAuditObserved := false
  echoObserved := false
  ambiguousEchoRetained := false
  discardedRxEventCount := 0
  discardedRxByteCount := 0
  interfered := false
  throughSeq := some boundary.txEventSeq
  truncated := false

/-- One event of the buffer is discarded, with so many of its bytes. -/
def discard (tracker : CommandBoundaryTracker) (bytes : ℕ) : CommandBoundaryTracker :=
  { tracker with
    discardedRxEventCount := satAdd u64Max tracker.discardedRxEventCount 1
    discardedRxByteCount := satAdd u64Max tracker.discardedRxByteCount bytes }

/-- `bound_pending`, on a buffer of this content. -/
def boundPending (tracker : CommandBoundaryTracker) :
    List TimelineEvent → CommandBoundaryTracker
  | [] => { tracker with pendingRx := [] }
  | dropped :: rest =>
      if tracker.limits.maxBytes < tracker.pendingBytes ∨
          tracker.limits.maxEvents < (dropped :: rest).length then
        boundPending
          { tracker.discard dropped.data.length with
            pendingBytes := tracker.pendingBytes - dropped.bufferedBytes
            truncated := true }
          rest
      else { tracker with pendingRx := dropped :: rest }

/-- `discard_pending_prefix`, on a buffer of this content. -/
def discardPendingPrefix (tracker : CommandBoundaryTracker) :
    ℕ → List TimelineEvent → List TimelineEvent × CommandBoundaryTracker
  | _, [] => ([], { tracker with pendingRx := [] })
  | remaining, event :: rest =>
      if event.data.length ≤ remaining then
        discardPendingPrefix
          { tracker.discard event.data.length with
            pendingBytes := tracker.pendingBytes - event.bufferedBytes }
          (remaining - event.data.length) rest
      else if 0 < remaining then
        (event.cut remaining :: rest,
          { tracker.discard remaining with pendingRx := [], pendingBytes := 0 })
      else (event :: rest, { tracker with pendingRx := [], pendingBytes := 0 })

/-- The echo is looked for in the buffer; `none` is a panic. -/
def reconcile (tracker : CommandBoundaryTracker) :
    Option (AcceptedEvents × CommandBoundaryTracker) :=
  match tracker.boundary.expectedEcho with
  | none => none
  | some expected =>
      let pending := dataOf tracker.pendingRx
      match findEchoEnd pending expected with
      | none => some (.pendingRx (fallbackAfterIncompleteEcho pending expected), tracker)
      | some echoMatch =>
          let tracker := { tracker with echoObserved := true, armed := true }
          if echoMatch.ambiguousPlainCrlfWrap then
            if pending.length < echoMatch.stop then none
            else
              some (.afterRetainedEcho tracker.pendingRx (pending.drop echoMatch.stop),
                { tracker with
                  pendingRx := [], pendingBytes := 0, ambiguousEchoRetained := true })
          else
            let (events, tracker) :=
              tracker.discardPendingPrefix echoMatch.stop tracker.pendingRx
            some (.afterEcho events, tracker)

/-- The RX event joins the buffer. -/
def buffer (tracker : CommandBoundaryTracker) (event : TimelineEvent) :
    CommandBoundaryTracker :=
  { tracker with
    pendingBytes := satAdd u64Max tracker.pendingBytes event.bufferedBytes }.boundPending
      (tracker.pendingRx ++ [event])

def accept (tracker : CommandBoundaryTracker) (event : TimelineEvent) :
    Option (AcceptedEvents × CommandBoundaryTracker) :=
  let foreign := event.direction = .tx ∧ event.operationId ≠ some tracker.boundary.operationId
  let tracker := {
    tracker with
    throughSeq := some (tracker.throughSeq.elim event.seq fun through => max through event.seq)
    interfered := tracker.interfered || foreign }
  if event.seq < tracker.boundary.txEventSeq then
    some (.none, { tracker with prewriteActivity := tracker.prewriteActivity.observe event })
  else if event.seq = tracker.boundary.txEventSeq then
    if event.direction = .tx ∧ event.operationId = some tracker.boundary.operationId then
      some (.none, { tracker with txAuditObserved := true })
    else
      some (.none, { tracker with prewriteActivity := tracker.prewriteActivity.observe event })
  else if tracker.armed ∨ event.direction ≠ .rx then some (.single event, tracker)
  else (tracker.buffer event).reconcile

def finish (tracker : CommandBoundaryTracker) :
    CommandBoundaryResult × List TimelineEvent :=
  ({ prewriteActivity := tracker.prewriteActivity
     txAuditObserved := tracker.txAuditObserved
     echoRequired := tracker.boundary.expectedEcho.isSome
     echoObserved := tracker.echoObserved
     ambiguousEchoRetained := tracker.ambiguousEchoRetained
     discardedRxEventCount := tracker.discardedRxEventCount
     discardedRxByteCount := tracker.discardedRxByteCount
     interfered := tracker.interfered },
    tracker.pendingRx)

/-- The events of a capture, one after the other: all events returned, and the
tracker behind them. -/
def acceptAll (tracker : CommandBoundaryTracker) :
    List TimelineEvent → Option (List TimelineEvent × CommandBoundaryTracker)
  | [] => some ([], tracker)
  | event :: events => do
      let (accepted, tracker) ← tracker.accept event
      let (rest, tracker) ← tracker.acceptAll events
      some (accepted.events ++ rest, tracker)

end CommandBoundaryTracker

/-! ## Conservation -/

/-- The RX events behind the command's TX. -/
def streamOf (boundary : CommandBoundary) (events : List TimelineEvent) : List TimelineEvent :=
  events.filter fun event => event.direction = .rx ∧ boundary.txEventSeq < event.seq

/-- The event is one of these, as it was or without its first bytes. -/
def CutFrom (events : List TimelineEvent) (event : TimelineEvent) : Prop :=
  event ∈ events ∨
    ∃ original ∈ events, ∃ removed < original.data.length, event = original.cut removed

@[simp] theorem dataOf_nil : dataOf [] = [] := rfl

@[simp] theorem dataOf_cons (event : TimelineEvent) (events : List TimelineEvent) :
    dataOf (event :: events) = event.data ++ dataOf events := rfl

@[simp] theorem dataOf_append (a b : List TimelineEvent) :
    dataOf (a ++ b) = dataOf a ++ dataOf b := by
  simp [dataOf]

@[simp] theorem rxOf_append (a b : List TimelineEvent) : rxOf (a ++ b) = rxOf a ++ rxOf b := by
  simp [rxOf]

theorem rxOf_of_rx {events : List TimelineEvent} (h : ∀ event ∈ events, event.direction = .rx) :
    rxOf events = events := by
  unfold rxOf
  rw [List.filter_eq_self]
  intro event hmem
  simpa using h event hmem

theorem CutFrom.of_subset {events events' : List TimelineEvent} {event : TimelineEvent}
    (h : CutFrom events event) (hsubset : ∀ e ∈ events, e ∈ events') :
    CutFrom events' event := by
  rcases h with hmem | ⟨original, hmem, removed, hremoved, rfl⟩
  · exact .inl (hsubset event hmem)
  · exact .inr ⟨original, hsubset original hmem, removed, hremoved, rfl⟩

theorem CutFrom.direction {events : List TimelineEvent} {event : TimelineEvent} {direction : Direction}
    (h : CutFrom events event) (hall : ∀ e ∈ events, e.direction = direction) :
    event.direction = direction := by
  rcases h with hmem | ⟨original, hmem, removed, hremoved, rfl⟩
  · exact hall event hmem
  · exact hall original hmem

theorem CutFrom.seq {events : List TimelineEvent} {event : TimelineEvent} {bound : ℕ}
    (h : CutFrom events event) (hall : ∀ e ∈ events, bound < e.seq) : bound < event.seq := by
  rcases h with hmem | ⟨original, hmem, removed, hremoved, rfl⟩
  · exact hall event hmem
  · exact hall original hmem

theorem satAdd_min (lost more : ℕ) :
    satAdd u64Max (min lost u64Max) more = min (lost + more) u64Max := by
  unfold satAdd
  omega

namespace CommandBoundaryTracker

variable {tracker : CommandBoundaryTracker}

/-- What one part of the tracker's work leaves alone. -/
structure Same (tracker tracker' : CommandBoundaryTracker) : Prop where
  boundary : tracker'.boundary = tracker.boundary
  armed : tracker'.armed = tracker.armed
  interfered : tracker'.interfered = tracker.interfered

theorem boundPending_spec (content : List TimelineEvent) {lost : ℕ}
    (hlost : tracker.discardedRxByteCount = min lost u64Max) :
    ∃ dropped, content = dropped ++ (tracker.boundPending content).pendingRx ∧
      (tracker.boundPending content).discardedRxByteCount =
        min (lost + (dataOf dropped).length) u64Max ∧
      Same tracker (tracker.boundPending content) := by
  induction content generalizing tracker lost with
  | nil => exact ⟨[], rfl, by simpa [boundPending] using hlost, rfl, rfl, rfl⟩
  | cons first rest ih =>
      rw [boundPending]
      split_ifs with hfull
      · have hcount : ({ tracker.discard first.data.length with
            pendingBytes := tracker.pendingBytes - first.bufferedBytes
            truncated := true } : CommandBoundaryTracker).discardedRxByteCount =
            min (lost + first.data.length) u64Max := by
          simp only [discard, hlost]
          exact satAdd_min _ _
        obtain ⟨dropped, hcontent, hdropped, hsame⟩ := ih hcount
        refine ⟨first :: dropped, ?_, ?_, hsame.boundary, hsame.armed, hsame.interfered⟩
        · rw [List.cons_append, ← hcontent]
        · rw [hdropped, dataOf_cons, List.length_append, Nat.add_assoc]
      · exact ⟨[], rfl, by simpa using hlost, rfl, rfl, rfl⟩

theorem discardPendingPrefix_spec (remaining : ℕ) (content : List TimelineEvent) {lost : ℕ}
    (hlost : tracker.discardedRxByteCount = min lost u64Max)
    (hinside : remaining ≤ (dataOf content).length) :
    dataOf (tracker.discardPendingPrefix remaining content).1 =
        (dataOf content).drop remaining ∧
      (tracker.discardPendingPrefix remaining content).2.discardedRxByteCount =
        min (lost + remaining) u64Max ∧
      (tracker.discardPendingPrefix remaining content).2.pendingRx = [] ∧
      (∀ event ∈ (tracker.discardPendingPrefix remaining content).1, CutFrom content event) ∧
      Same tracker (tracker.discardPendingPrefix remaining content).2 := by
  induction content generalizing tracker remaining lost with
  | nil =>
      obtain rfl : remaining = 0 := Nat.le_zero.mp hinside
      exact ⟨rfl, by simpa [discardPendingPrefix] using hlost, rfl,
        fun _ h => (List.not_mem_nil h).elim, rfl, rfl, rfl⟩
  | cons first rest ih =>
      rw [discardPendingPrefix]
      split_ifs with hwhole hpart
      · have hcount : ({ tracker.discard first.data.length with
            pendingBytes := tracker.pendingBytes - first.bufferedBytes } :
              CommandBoundaryTracker).discardedRxByteCount =
            min (lost + first.data.length) u64Max := by
          simp only [discard, hlost]
          exact satAdd_min _ _
        have hinside' : remaining - first.data.length ≤ (dataOf rest).length := by
          rw [dataOf_cons, List.length_append] at hinside
          omega
        obtain ⟨hdata, hdiscarded, hempty, hcut, hsame⟩ :=
          ih _ hcount hinside'
        refine ⟨?_, ?_, hempty, ?_, hsame.boundary, hsame.armed, hsame.interfered⟩
        · rw [hdata, dataOf_cons, List.drop_append, List.drop_of_length_le hwhole, List.nil_append]
        · rw [hdiscarded]
          congr 1
          omega
        · intro event hmem
          exact (hcut event hmem).of_subset fun e he => List.mem_cons_of_mem _ he
      · refine ⟨?_, ?_, rfl, ?_, rfl, rfl, rfl⟩
        · simp only [dataOf_cons, TimelineEvent.cut]
          rw [List.drop_append_of_le_length (by omega)]
        · simp only [discard, hlost]
          exact satAdd_min _ _
        · intro event hmem
          rcases List.mem_cons.mp hmem with rfl | hrest
          · exact .inr ⟨first, List.mem_cons_self, remaining, by omega, rfl⟩
          · exact .inl (List.mem_cons_of_mem _ hrest)
      · obtain rfl : remaining = 0 := by omega
        exact ⟨by simp, by simpa using hlost, rfl, fun event hmem => .inl hmem, rfl, rfl, rfl⟩

/-- What the tracker has made of the events so far, and what it returned of them. -/
structure Conserves (boundary : CommandBoundary) (events returned : List TimelineEvent)
    (tracker : CommandBoundaryTracker) : Prop where
  ours : tracker.boundary = boundary
  stream : ∃ lost ≤ (dataOf (streamOf boundary events)).length,
    dataOf (rxOf returned) ++ dataOf tracker.pendingRx =
        (dataOf (streamOf boundary events)).drop lost ∧
      tracker.discardedRxByteCount = min lost u64Max
  buffered : ∀ event ∈ tracker.pendingRx, event ∈ streamOf boundary events
  kept : ∀ event ∈ returned, CutFrom (events.filter (boundary.txEventSeq < ·.seq)) event
  unarmed : tracker.armed = false → rxOf returned = [] ∧ boundary.expectedEcho.isSome
  armed : tracker.armed = true → tracker.pendingRx = []
  interfered : tracker.interfered = true ↔
    ∃ event ∈ events, event.direction = .tx ∧ event.operationId ≠ some boundary.operationId

theorem conserves_new (boundary : CommandBoundary) (limits : CaptureLimits) :
    Conserves boundary [] [] (new boundary limits) where
  ours := rfl
  stream := ⟨0, le_refl _, rfl, rfl⟩
  buffered := fun _ h => (List.not_mem_nil h).elim
  kept := fun _ h => (List.not_mem_nil h).elim
  unarmed := fun h => ⟨rfl, by simpa [new, Option.isSome_iff_ne_none] using h⟩
  armed := fun _ => rfl
  interfered := by simp [new]

section
variable {boundary : CommandBoundary} {events returned : List TimelineEvent}
  {event : TimelineEvent}

theorem streamOf_append (a b : List TimelineEvent) :
    streamOf boundary (a ++ b) = streamOf boundary a ++ streamOf boundary b := by
  simp [streamOf]

theorem mem_streamOf {e : TimelineEvent} :
    e ∈ streamOf boundary events ↔
      e ∈ events ∧ e.direction = .rx ∧ boundary.txEventSeq < e.seq := by
  simp [streamOf]

theorem kept_later (h : ∀ e ∈ returned,
      CutFrom (events.filter (boundary.txEventSeq < ·.seq)) e) :
    ∀ e ∈ returned, CutFrom ((events ++ [event]).filter (boundary.txEventSeq < ·.seq)) e := by
  intro e hmem
  apply (h e hmem).of_subset
  intro original horiginal
  rw [List.filter_append]
  exact List.mem_append_left _ horiginal

theorem interfered_later (h : tracker.interfered = true ↔ ∃ e ∈ events,
      e.direction = .tx ∧ e.operationId ≠ some boundary.operationId) :
    (tracker.interfered ||
        decide (event.direction = .tx ∧ event.operationId ≠ some boundary.operationId)) = true ↔
      ∃ e ∈ events ++ [event], e.direction = .tx ∧
        e.operationId ≠ some boundary.operationId := by
  rw [Bool.or_eq_true, h, decide_eq_true_eq]
  constructor
  · rintro (⟨e, hmem, he⟩ | he)
    · exact ⟨e, List.mem_append_left _ hmem, he⟩
    · exact ⟨event, by simp, he⟩
  · rintro ⟨e, hmem, he⟩
    rcases List.mem_append.mp hmem with hold | hnew
    · exact .inl ⟨e, hold, he⟩
    · rw [List.mem_singleton] at hnew
      exact .inr (hnew ▸ he)

/-- An event which is not buffered is returned, or lies before the command's TX. -/
theorem Conserves.pass (h : Conserves boundary events returned tracker) {accepted : List TimelineEvent}
    {tracker' : CommandBoundaryTracker} (hsame : tracker'.boundary = tracker.boundary)
    (harmed : tracker'.armed = tracker.armed) (hpending : tracker'.pendingRx = tracker.pendingRx)
    (hcount : tracker'.discardedRxByteCount = tracker.discardedRxByteCount)
    (hinterfered : tracker'.interfered = (tracker.interfered ||
      decide (event.direction = .tx ∧ event.operationId ≠ some tracker.boundary.operationId)))
    (hrx : rxOf accepted = streamOf boundary [event])
    (hquiet : tracker.armed = false → rxOf accepted = [])
    (hkept : ∀ e ∈ accepted, e = event ∧ boundary.txEventSeq < event.seq) :
    Conserves boundary (events ++ [event]) (returned ++ accepted) tracker' := by
  obtain ⟨hboundary, ⟨lost, hlost, hstream, hlostCount⟩, hbuffered, hold, hunarmed, hempty,
    hforeign⟩ := h
  refine ⟨hsame.trans hboundary, ⟨lost, ?_, ?_, hcount.trans hlostCount⟩, ?_, ?_, ?_, ?_, ?_⟩
  · rw [streamOf_append, dataOf_append, List.length_append]
    omega
  · rw [rxOf_append, hrx, hpending, streamOf_append, dataOf_append, dataOf_append,
      List.drop_append_of_le_length hlost, ← hstream]
    cases harm : tracker.armed with
    | true => simp [hempty harm]
    | false =>
        have hnone := hquiet harm
        rw [hrx] at hnone
        simp [hnone]
  · intro e hmem
    rw [hpending] at hmem
    rw [streamOf_append]
    exact List.mem_append_left _ (hbuffered e hmem)
  · intro e hmem
    rcases List.mem_append.mp hmem with hmem | hmem
    · exact kept_later hold e hmem
    · obtain ⟨rfl, hseq⟩ := hkept e hmem
      exact .inl (by simp [hseq])
  · intro harm
    rw [harmed] at harm
    obtain ⟨hnone, hecho⟩ := hunarmed harm
    exact ⟨by rw [rxOf_append, hnone, hquiet harm]; rfl, hecho⟩
  · intro harm
    rw [harmed] at harm
    rw [hpending]
    exact hempty harm
  · rw [hinterfered, hboundary]
    exact interfered_later hforeign

/-- A buffered event, from what is returned of the buffer and what stays in it. -/
theorem Conserves.buffered_step (h : Conserves boundary events returned tracker)
    (hunarmed : tracker.armed = false)
    (hevent : event.direction = .rx ∧ boundary.txEventSeq < event.seq)
    {accepted : List TimelineEvent} {tracker' : CommandBoundaryTracker} {lost more : ℕ}
    (hboundary : tracker'.boundary = boundary)
    (hlost : lost ≤ (dataOf (streamOf boundary events)).length)
    (hstream : dataOf tracker.pendingRx = (dataOf (streamOf boundary events)).drop lost)
    (hmore : more ≤ (dataOf (tracker.pendingRx ++ [event])).length)
    (hdata : dataOf accepted ++ dataOf tracker'.pendingRx =
      (dataOf (tracker.pendingRx ++ [event])).drop more)
    (hcount : tracker'.discardedRxByteCount = min (lost + more) u64Max)
    (hpending : ∀ e ∈ tracker'.pendingRx, e ∈ tracker.pendingRx ++ [event])
    (hcut : ∀ e ∈ accepted, CutFrom (tracker.pendingRx ++ [event]) e)
    (hquiet : tracker'.armed = false → accepted = [])
    (hempty : tracker'.armed = true → tracker'.pendingRx = [])
    (hinterfered : tracker'.interfered = (tracker.interfered ||
      decide (event.direction = .tx ∧ event.operationId ≠ some boundary.operationId))) :
    Conserves boundary (events ++ [event]) (returned ++ accepted) tracker' := by
  obtain ⟨hnone, hecho⟩ := h.unarmed hunarmed
  have hone : streamOf boundary [event] = [event] := by simp [streamOf, hevent]
  have hall : ∀ e ∈ tracker.pendingRx ++ [event], e ∈ streamOf boundary (events ++ [event]) := by
    intro e hmem
    rw [streamOf_append, hone]
    rcases List.mem_append.mp hmem with hold | hnew
    · exact List.mem_append_left _ (h.buffered e hold)
    · exact List.mem_append_right _ hnew
  have hrx : ∀ e ∈ accepted, e.direction = .rx := by
    intro e hmem
    exact (hcut e hmem).direction fun original horiginal =>
      (mem_streamOf.mp (hall original horiginal)).2.1
  have hbuffer : dataOf (tracker.pendingRx ++ [event]) =
      (dataOf (streamOf boundary (events ++ [event]))).drop lost := by
    rw [streamOf_append, hone, dataOf_append, dataOf_append, hstream,
      List.drop_append_of_le_length hlost]
  have hlength := congrArg List.length hbuffer
  rw [List.length_drop] at hlength
  have htotal : lost ≤ (dataOf (streamOf boundary (events ++ [event]))).length := by
    rw [streamOf_append, dataOf_append, List.length_append]
    omega
  refine ⟨hboundary, ⟨lost + more, by omega, ?_, hcount⟩, fun e hmem => hall e (hpending e hmem),
    ?_, fun harm => ⟨?_, hecho⟩, hempty, ?_⟩
  · rw [rxOf_append, hnone, List.nil_append, rxOf_of_rx hrx, hdata, hbuffer, List.drop_drop]
  · intro e hmem
    rcases List.mem_append.mp hmem with hmem | hmem
    · exact kept_later h.kept e hmem
    · apply (hcut e hmem).of_subset
      intro original horiginal
      obtain ⟨hmem', -, hseq⟩ := mem_streamOf.mp (hall original horiginal)
      exact List.mem_filter.mpr ⟨hmem', by simpa using hseq⟩
  · rw [rxOf_append, hnone, hquiet harm]
    rfl
  · rw [hinterfered]
    exact interfered_later h.interfered

theorem Conserves.buffer (h : Conserves boundary events returned tracker)
    (hunarmed : tracker.armed = false)
    (hevent : event.direction = .rx ∧ boundary.txEventSeq < event.seq)
    {later : CommandBoundaryTracker} (hsame : later.boundary = tracker.boundary)
    (harmed : later.armed = tracker.armed) (hpending : later.pendingRx = tracker.pendingRx)
    (hcount : later.discardedRxByteCount = tracker.discardedRxByteCount)
    (hinterfered : later.interfered = (tracker.interfered ||
      decide (event.direction = .tx ∧ event.operationId ≠ some boundary.operationId))) :
    ∃ accepted tracker', (later.buffer event).reconcile = some (accepted, tracker') ∧
      Conserves boundary (events ++ [event]) (returned ++ accepted.events) tracker' := by
  obtain ⟨lost, hlost, hstream, hlostCount⟩ := h.stream
  obtain ⟨hnone, hecho⟩ := h.unarmed hunarmed
  obtain ⟨expected, hexpected⟩ := Option.isSome_iff_exists.mp hecho
  rw [hnone, dataOf_nil, List.nil_append] at hstream
  have hgrown : ({ later with
      pendingBytes := satAdd u64Max later.pendingBytes event.bufferedBytes } :
        CommandBoundaryTracker).discardedRxByteCount = min lost u64Max := hcount.trans hlostCount
  obtain ⟨dropped, hcontent, hdropped, hkeeps⟩ :=
    boundPending_spec (later.pendingRx ++ [event]) hgrown
  change _ = dropped ++ (later.buffer event).pendingRx at hcontent
  change (later.buffer event).discardedRxByteCount = _ at hdropped
  obtain ⟨hboundary, harmed', hforeign⟩ := hkeeps
  change (later.buffer event).boundary = _ at hboundary
  change (later.buffer event).armed = later.armed at harmed'
  change (later.buffer event).interfered = _ at hforeign
  generalize later.buffer event = bounded at hcontent hdropped hboundary harmed' hforeign ⊢
  replace hboundary : bounded.boundary = boundary := hboundary.trans (hsame.trans h.ours)
  replace hforeign := hforeign.trans hinterfered
  rw [hpending] at hcontent
  have hbuffered := congrArg dataOf hcontent
  rw [dataOf_append dropped] at hbuffered
  have hmore : (dataOf dropped).length ≤ (dataOf (tracker.pendingRx ++ [event])).length := by
    rw [hbuffered, List.length_append]
    omega
  have hrest : dataOf bounded.pendingRx =
      (dataOf (tracker.pendingRx ++ [event])).drop (dataOf dropped).length := by
    rw [hbuffered, List.drop_left]
  have hinside : ∀ e ∈ bounded.pendingRx, e ∈ tracker.pendingRx ++ [event] := by
    intro e hmem
    rw [hcontent]
    exact List.mem_append_right _ hmem
  have hexpected' : bounded.boundary.expectedEcho = some expected := by rw [hboundary, hexpected]
  unfold reconcile
  rw [hexpected']
  simp only
  cases hfound : findEchoEnd (dataOf bounded.pendingRx) expected with
  | none =>
      refine ⟨_, _, rfl, h.buffered_step hunarmed hevent hboundary hlost hstream hmore hrest
        hdropped hinside (fun _ hmem => (List.not_mem_nil hmem).elim) (fun _ => rfl) ?_ hforeign⟩
      intro harm
      rw [harmed', harmed, hunarmed] at harm
      cases harm
  | some echoMatch =>
      have hstop := findEchoEnd_le hfound
      simp only
      by_cases hambiguous : echoMatch.ambiguousPlainCrlfWrap
      · rw [if_pos hambiguous, if_neg (not_lt.mpr hstop)]
        refine ⟨_, _, rfl, h.buffered_step hunarmed hevent hboundary hlost hstream hmore ?_
          hdropped (fun _ hmem => (List.not_mem_nil hmem).elim)
          (fun e hmem => .inl (hinside e hmem)) (fun harm => (nomatch harm)) (fun _ => rfl)
          hforeign⟩
        change dataOf bounded.pendingRx ++ [] = _
        rw [List.append_nil]
        exact hrest
      · rw [if_neg hambiguous]
        have hcount' : ({ bounded with echoObserved := true, armed := true } :
            CommandBoundaryTracker).discardedRxByteCount =
              min (lost + (dataOf dropped).length) u64Max := hdropped
        obtain ⟨hdata, hdiscarded, hempty, hcut, hagain⟩ :=
          discardPendingPrefix_spec echoMatch.stop bounded.pendingRx hcount' hstop
        have hlength := congrArg List.length hrest
        rw [List.length_drop] at hlength
        have htotal : (dataOf dropped).length + echoMatch.stop ≤
            (dataOf (tracker.pendingRx ++ [event])).length := by omega
        refine ⟨_, _, rfl, h.buffered_step hunarmed hevent (hagain.boundary.trans hboundary)
          hlost hstream htotal ?_ ?_ ?_ ?_ ?_ (fun _ => hempty)
          (hagain.interfered.trans hforeign)⟩
        · rw [hempty, dataOf_nil, List.append_nil]
          exact hdata.trans (by rw [hrest, List.drop_drop])
        · rw [hdiscarded, Nat.add_assoc]
        · intro e hmem
          rw [hempty] at hmem
          exact (List.not_mem_nil hmem).elim
        · exact fun e hmem => (hcut e hmem).of_subset hinside
        · intro harm
          rw [hagain.armed] at harm
          cases harm

/-- One event keeps the account. -/
theorem Conserves.accept (h : Conserves boundary events returned tracker)
    (event : TimelineEvent) :
    ∃ accepted tracker', tracker.accept event = some (accepted, tracker') ∧
      Conserves boundary (events ++ [event]) (returned ++ accepted.events) tracker' := by
  have hours := h.ours
  have hignored (hseq : ¬ boundary.txEventSeq < event.seq) :
      rxOf [] = streamOf boundary [event] := by
    simp [rxOf, streamOf, hseq]
  have hnothing : ∀ e ∈ ([] : List TimelineEvent),
      e = event ∧ boundary.txEventSeq < event.seq := fun _ hmem => (List.not_mem_nil hmem).elim
  unfold CommandBoundaryTracker.accept
  simp only
  by_cases hbefore : event.seq < tracker.boundary.txEventSeq
  · rw [if_pos hbefore]
    rw [hours] at hbefore
    exact ⟨_, _, rfl, h.pass rfl rfl rfl rfl rfl (hignored (by omega)) (fun _ => rfl) hnothing⟩
  rw [if_neg hbefore]
  by_cases hequal : event.seq = tracker.boundary.txEventSeq
  · rw [if_pos hequal]
    rw [hours] at hequal
    by_cases hown : event.direction = .tx ∧
        event.operationId = some tracker.boundary.operationId
    · rw [if_pos hown]
      exact ⟨_, _, rfl, h.pass rfl rfl rfl rfl rfl (hignored (by omega)) (fun _ => rfl) hnothing⟩
    · rw [if_neg hown]
      exact ⟨_, _, rfl, h.pass rfl rfl rfl rfl rfl (hignored (by omega)) (fun _ => rfl) hnothing⟩
  rw [if_neg hequal]
  rw [hours] at hbefore hequal
  have hbehind : boundary.txEventSeq < event.seq := by omega
  by_cases hpass : tracker.armed ∨ event.direction ≠ .rx
  · rw [if_pos hpass]
    refine ⟨_, _, rfl, h.pass rfl rfl rfl rfl rfl ?_ ?_ ?_⟩
    · by_cases hrx : event.direction = .rx
      · simp [AcceptedEvents.single, rxOf, streamOf, hrx, hbehind]
      · simp [AcceptedEvents.single, rxOf, streamOf, hrx]
    · intro hunarmed
      have hother : event.direction ≠ .rx := by simpa [hunarmed] using hpass
      simp [AcceptedEvents.single, rxOf, hother]
    · intro e hmem
      exact ⟨List.mem_singleton.mp hmem, hbehind⟩
  · rw [if_neg hpass]
    rw [not_or, not_not] at hpass
    refine h.buffer (by simpa using hpass.1) ⟨hpass.2, hbehind⟩ rfl rfl rfl rfl ?_
    rw [hours]

theorem Conserves.acceptAll (h : Conserves boundary events returned tracker)
    (more : List TimelineEvent) :
    ∃ later tracker', tracker.acceptAll more = some (later, tracker') ∧
      Conserves boundary (events ++ more) (returned ++ later) tracker' := by
  induction more generalizing tracker events returned with
  | nil => exact ⟨[], tracker, rfl, by simpa using h⟩
  | cons event more ih =>
      obtain ⟨accepted, next, haccept, hnext⟩ := h.accept event
      obtain ⟨later, last, hlater, hlast⟩ := ih hnext
      refine ⟨accepted.events ++ later, last, ?_, by simpa using hlast⟩
      simp [CommandBoundaryTracker.acceptAll, haccept, hlater]

end

end CommandBoundaryTracker

/-- The evidence of a capture: what is returned of the stream behind the command's TX
is all of it but a prefix, whose bytes are counted. -/
structure Evidence (boundary : CommandBoundary) (events returned : List TimelineEvent)
    (result : CommandBoundaryResult) : Prop where
  stream : ∃ discarded, dataOf (streamOf boundary events) = discarded ++ dataOf (rxOf returned) ∧
    result.discardedRxByteCount = min discarded.length u64Max
  kept : ∀ event ∈ returned, CutFrom events event
  behind : ∀ event ∈ returned, boundary.txEventSeq < event.seq
  interfered : result.interfered = true ↔
    ∃ event ∈ events, event.direction = .tx ∧ event.operationId ≠ some boundary.operationId

/-- A capture returns the stream behind the command's TX, except for a counted prefix. -/
theorem capture_conserves (boundary : CommandBoundary) (limits : CaptureLimits)
    (events : List TimelineEvent) :
    ∃ accepted tracker,
      (CommandBoundaryTracker.new boundary limits).acceptAll events = some (accepted, tracker) ∧
        Evidence boundary events (accepted ++ tracker.finish.2) tracker.finish.1 := by
  obtain ⟨accepted, tracker, haccept, h⟩ :=
    (CommandBoundaryTracker.conserves_new boundary limits).acceptAll events
  rw [List.nil_append, List.nil_append] at h
  obtain ⟨lost, hlost, hstream, hcount⟩ := h.stream
  have hpendingRx : ∀ e ∈ tracker.pendingRx, e.direction = .rx := fun e hmem =>
    (CommandBoundaryTracker.mem_streamOf.mp (h.buffered e hmem)).2.1
  have hkept : ∀ e ∈ accepted ++ tracker.pendingRx,
      CutFrom (events.filter (boundary.txEventSeq < ·.seq)) e := by
    intro e hmem
    rcases List.mem_append.mp hmem with hmem | hmem
    · exact h.kept e hmem
    · obtain ⟨hmem', -, hseq⟩ := CommandBoundaryTracker.mem_streamOf.mp (h.buffered e hmem)
      exact .inl (List.mem_filter.mpr ⟨hmem', by simpa using hseq⟩)
  refine ⟨accepted, tracker, haccept, ⟨(dataOf (streamOf boundary events)).take lost, ?_, ?_⟩,
    ?_, ?_, h.interfered⟩
  · change _ = _ ++ dataOf (rxOf (accepted ++ tracker.pendingRx))
    rw [rxOf_append, rxOf_of_rx hpendingRx, dataOf_append]
    have hwhole := List.take_append_drop lost (dataOf (streamOf boundary events))
    rw [← hstream] at hwhole
    exact hwhole.symm
  · rw [List.length_take, Nat.min_eq_left hlost]
    exact hcount
  · exact fun e hmem => (hkept e hmem).of_subset fun _ he => List.mem_of_mem_filter he
  · intro e hmem
    exact (hkept e hmem).seq fun original horiginal => by
      simpa using (List.mem_filter.mp horiginal).2

end Capture

end SerialPlatform
