import SerialPlatform.ExceptBind
import SerialPlatform.LiveTail

/-!
# Live pages skip nothing

The numbers of the ring are consecutive and end at the counter, so a page is the
part of the ring between the cursor and the head, and a gap says what the ring
lost of it.
-/

namespace SerialPlatform

open Journal (GapRange EventQueryResponse)

def seqs (events : List TimelineEvent) : List ℕ := events.map TimelineEvent.seq

/-! ## What leaves the ring -/

namespace EventRing

theorem evict_suffix (maxEvents maxBytes : ℕ) (entries : List RingEntry) (bytes : ℕ) :
    (evict maxEvents maxBytes entries bytes).1 <:+ entries := by
  induction entries generalizing bytes with
  | nil => exact List.suffix_rfl
  | cons entry rest ih =>
      simp only [evict]
      split
      · exact (ih _).trans (List.suffix_cons entry rest)
      · exact List.suffix_rfl

theorem evict_length_le (maxEvents maxBytes : ℕ) (entries : List RingEntry) (bytes : ℕ) :
    (evict maxEvents maxBytes entries bytes).1.length ≤ maxEvents := by
  induction entries generalizing bytes with
  | nil => simp [evict]
  | cons entry rest ih =>
      simp only [evict]
      split
      · exact ih _
      · rename_i hkept
        push Not at hkept
        exact hkept.1

theorem push_suffix (ring : EventRing) (event : TimelineEvent) (size : ℕ) :
    (ring.push event size).timeline <:+ ring.timeline ++ [event] := by
  have hkept := evict_suffix ring.maxEvents ring.maxBytes
    (ring.events ++ [{ event := event, size := size }]) (satAdd u64Max ring.bytes size)
  have htimeline := hkept.map RingEntry.event
  rwa [List.map_append] at htimeline

theorem push_length_le (ring : EventRing) (event : TimelineEvent) (size : ℕ) :
    (ring.push event size).timeline.length ≤ ring.maxEvents := by
  simp only [timeline, List.length_map]
  exact evict_length_le _ _ _ _

theorem markDurableFirst_seqs (seq : ℕ) (entries : List RingEntry) :
    (markDurableFirst seq entries).map (fun entry => entry.event.seq) =
      entries.map fun entry => entry.event.seq := by
  induction entries with
  | nil => rfl
  | cons entry rest ih =>
      simp only [markDurableFirst]
      split
      · rfl
      · simp only [List.map_cons, ih]

theorem seqs_markDurable (ring : EventRing) (seq : ℕ) :
    seqs (ring.markDurable seq).timeline = seqs ring.timeline := by
  have hmarked := markDurableFirst_seqs seq ring.events.reverse
  simp only [seqs, timeline, markDurable, List.map_map, List.map_reverse]
  have hsame := congrArg List.reverse hmarked
  simpa [List.map_reverse, Function.comp_def] using hsame

/-! ## What stays in it -/

/-- The ring holds the newest events up to `newest`, one for each number. -/
structure Holds (ring : EventRing) (newest : ℕ) : Prop where
  seqs_eq : seqs ring.timeline =
    List.range' (newest + 1 - ring.timeline.length) ring.timeline.length
  length_le : ring.timeline.length ≤ newest
  bound_pos : 1 ≤ ring.maxEvents
  bound : ring.timeline.length ≤ ring.maxEvents

theorem holds_new (maxEvents maxBytes : ℕ) : (new maxEvents maxBytes).Holds 0 := by
  constructor <;> simp [new, timeline, seqs]

theorem Holds.push {ring : EventRing} {newest : ℕ} (h : ring.Holds newest)
    {event : TimelineEvent} (hseq : event.seq = newest + 1) (size : ℕ) :
    (ring.push event size).Holds (newest + 1) := by
  have hsuffix := push_suffix ring event size
  obtain ⟨evicted, hevicted⟩ := hsuffix
  have hlengths := congrArg List.length hevicted
  simp only [List.length_append, List.length_singleton] at hlengths
  have hlength := h.length_le
  have hall : seqs (ring.timeline ++ [event]) =
      List.range' (newest + 1 - ring.timeline.length) (ring.timeline.length + 1) := by
    rw [List.range'_1_concat, ← h.seqs_eq]
    simp only [seqs, List.map_append, List.map_singleton, hseq]
    congr 2
    omega
  constructor
  · have hdrop : (ring.push event size).timeline =
        (ring.timeline ++ [event]).drop evicted.length := by
      rw [← hevicted, List.drop_left]
    have hmap : seqs ((ring.timeline ++ [event]).drop evicted.length) =
        (seqs (ring.timeline ++ [event])).drop evicted.length := by
      simp only [seqs, List.map_drop]
    rw [hdrop, hmap, hall, List.drop_range']
    congr 1
    · simp only [List.length_drop, List.length_append, List.length_singleton]
      omega
    · simp
  · omega
  · exact h.bound_pos
  · exact push_length_le ring event size

theorem Holds.markDurable {ring : EventRing} {newest : ℕ} (h : ring.Holds newest) (seq : ℕ) :
    (ring.markDurable seq).Holds newest := by
  have hseqs := seqs_markDurable ring seq
  have hlength : (ring.markDurable seq).timeline.length = ring.timeline.length := by
    have hlengths := congrArg List.length hseqs
    simpa [seqs] using hlengths
  constructor
  · rw [hseqs, hlength]
    exact h.seqs_eq
  · rw [hlength]
    exact h.length_le
  · exact h.bound_pos
  · rw [hlength]
    exact h.bound

theorem Holds.increasing {ring : EventRing} {newest : ℕ} (h : ring.Holds newest) :
    (seqs ring.timeline).Pairwise (· < ·) := by
  rw [h.seqs_eq]
  exact List.pairwise_lt_range'

theorem Holds.mem_iff {ring : EventRing} {newest : ℕ} (h : ring.Holds newest) {seq : ℕ} :
    seq ∈ seqs ring.timeline ↔ newest < seq + ring.timeline.length ∧ seq ≤ newest := by
  have hlength := h.length_le
  rw [h.seqs_eq, List.mem_range'_1]
  omega

/-- The oldest number which the ring still holds. -/
theorem Holds.oldestSeq {ring : EventRing} {newest : ℕ} (h : ring.Holds newest) :
    ring.oldestSeq =
      if ring.timeline = [] then none else some (newest + 1 - ring.timeline.length) := by
  have hhead : ring.oldestSeq = (seqs ring.timeline).head? := by
    simp only [EventRing.oldestSeq, seqs, List.head?_map]
  rw [hhead, h.seqs_eq]
  cases htimeline : ring.timeline with
  | nil => simp
  | cons event rest =>
      simp [List.range'_succ]

/-! ## What a replay returns -/

/-- The events of a window lie between the cursor and the head, and what is
missing there lies in front of the oldest event of the ring. -/
structure WindowBetween (window : ReplayWindow) (afterSeq head : ℕ) : Prop where
  le : afterSeq ≤ head
  increasing : (seqs window.events).Pairwise (· < ·)
  bounds : ∀ seq ∈ seqs window.events, afterSeq < seq ∧ seq ≤ head
  missing : ∀ seq, afterSeq < seq → seq ≤ head → seq ∉ seqs window.events →
    ∃ gap, window.gap = some gap ∧ ∀ first, gap.firstAvailableSeq = some first → seq < first
  gap : ∀ gap, window.gap = some gap → afterSeq < head ∧ gap.requestedAfterSeq = some afterSeq

theorem seqs_filter (p : ℕ → Bool) (events : List TimelineEvent) :
    seqs (events.filter fun event => p event.seq) = (seqs events).filter p := by
  simp only [seqs, List.filter_map, Function.comp_def]

/-- Asked for everything, the tail is all of the ring up to the head. -/
theorem Holds.replayTail {ring : EventRing} {newest : ℕ} (h : ring.Holds newest)
    (hsize : ring.maxEvents ≤ usizeMax) (head : ℕ) :
    seqs (ring.replayTail head usizeMax) = (seqs ring.timeline).filter (· ≤ head) := by
  have hbound := h.bound
  have hpos := h.bound_pos
  have hcount : (ring.timeline.filter fun event => decide (event.seq ≤ head)).length ≤
      ring.timeline.length := List.length_filter_le _ _
  have hnone : (ring.timeline.filter fun event => decide (event.seq ≤ head)).length -
      max 1 (min usizeMax ring.maxEvents) = 0 := by
    omega
  simp only [EventRing.replayTail, hnone, List.drop_zero]
  exact seqs_filter (fun seq => decide (seq ≤ head)) ring.timeline

theorem Holds.replay {ring : EventRing} {newest : ℕ} (h : ring.Holds newest)
    (hsize : ring.maxEvents ≤ usizeMax) {epoch : Uuid} {afterSeq head : ℕ}
    (hhead : head ≤ newest) (hcap : newest ≤ u64Max) {window : ReplayWindow}
    (hreplay : ring.replay epoch (some { epoch := epoch, afterSeq := afterSeq }) head usizeMax =
      .ok window) : WindowBetween window afterSeq head := by
  have hfilter : ∀ p : ℕ → Bool, ((seqs ring.timeline).filter p).Pairwise (· < ·) :=
    fun p => h.increasing.filter p
  have holdest := h.oldestSeq
  simp only [EventRing.replay, ne_eq, not_true_eq_false, if_false] at hreplay
  split at hreplay
  · cases hreplay
  · rename_i hahead
    split at hreplay
    · rename_i hequal
      cases hreplay
      constructor
      · omega
      · simp [seqs]
      · simp [seqs]
      · intro seq hafter hbefore
        omega
      · intro gap hgap
        cases hgap
    · rename_i hbehind
      split at hreplay
      · rename_i hevicted
        -- the ring begins behind the cursor, so all of it up to the head is returned
        have htail := h.replayTail hsize head
        cases hreplay
        constructor
        · omega
        · rw [htail]
          exact hfilter _
        · intro seq hseq
          rw [htail, List.mem_filter, h.mem_iff] at hseq
          have hfirst : afterSeq + 1 < newest + 1 - ring.timeline.length := by
            have hroom : afterSeq + 1 ≤ u64Max := by
              omega
            rw [← satAdd_eq_add hroom]
            apply hevicted
            rw [holdest, if_neg]
            intro hempty
            simp only [hempty, List.length_nil, add_zero] at hseq
            omega
          have hle := of_decide_eq_true hseq.2
          omega
        · intro seq hafter hbefore hmissing
          refine ⟨_, rfl, ?_⟩
          intro first hfirst
          simp only at hfirst
          rw [holdest] at hfirst
          split at hfirst
          · cases hfirst
          · cases hfirst
            by_contra hin
            apply hmissing
            rw [htail, List.mem_filter, h.mem_iff]
            have hlength := h.length_le
            refine ⟨⟨?_, ?_⟩, ?_⟩
            · omega
            · omega
            · simpa using hbefore
        · intro gap hgap
          cases hgap
          exact ⟨by omega, rfl⟩
      · rename_i hkept
        have hevents : seqs (ring.timeline.filter fun event =>
            decide (afterSeq < event.seq ∧ event.seq ≤ head)) =
            (seqs ring.timeline).filter fun seq => decide (afterSeq < seq ∧ seq ≤ head) :=
          seqs_filter (fun seq => decide (afterSeq < seq ∧ seq ≤ head)) ring.timeline
        cases hreplay
        constructor
        · omega
        · rw [hevents]
          exact hfilter _
        · intro seq hseq
          rw [hevents, List.mem_filter] at hseq
          exact of_decide_eq_true hseq.2
        · intro seq hafter hbefore hmissing
          exfalso
          apply hmissing
          rw [hevents, List.mem_filter, h.mem_iff]
          push Not at hkept
          obtain ⟨first, hfirst, hle⟩ := hkept
          have hlength := h.length_le
          rw [holdest] at hfirst
          rw [satAdd_eq_add (by omega : afterSeq + 1 ≤ u64Max)] at hle
          split at hfirst
          · cases hfirst
          · cases hfirst
            refine ⟨⟨?_, ?_⟩, ?_⟩
            · omega
            · omega
            · simp [hafter, hbefore]
        · intro gap hgap
          cases hgap

end EventRing

/-! ## What a page returns -/

/-- A page from a cursor to its next cursor, below a head. -/
structure PageCovers (page : EventQueryResponse) (epoch : Uuid) (afterSeq next head : ℕ) :
    Prop where
  nextCursor : page.nextCursor = some { epoch := epoch, afterSeq := next }
  increasing : (seqs page.events).Pairwise (· < ·)
  bounds : ∀ seq ∈ seqs page.events, afterSeq < seq ∧ seq ≤ next
  covered : ∀ seq, afterSeq < seq → seq ≤ next → (seqs page.events).count seq = 1 ∨
    ∃ gap ∈ page.gaps, gap.firstSeq ≤ seq ∧ seq ≤ gap.lastSeq
  le_next : afterSeq ≤ next
  next_le : next ≤ head
  progress : page.truncated = true → afterSeq < next
  complete : page.truncated = false → next = head

theorem count_eq_one_of_increasing {numbers : List ℕ} (h : numbers.Pairwise (· < ·)) {seq : ℕ}
    (hseq : seq ∈ numbers) : numbers.count seq = 1 := by
  have hnodup : numbers.Nodup := h.imp (fun hlt => Nat.ne_of_lt hlt)
  exact List.count_eq_one_of_mem hnodup hseq

/-- The first numbers of an increasing list are those up to their last one. -/
theorem mem_take_of_le_getLast {numbers : List ℕ} (h : numbers.Pairwise (· < ·))
    {count last seq : ℕ} (hlast : (numbers.take count).getLast? = some last)
    (hseq : seq ∈ numbers) (hle : seq ≤ last) : seq ∈ numbers.take count := by
  have hsplit := List.take_append_drop count numbers
  rw [← hsplit] at h hseq
  rcases List.mem_append.1 hseq with hfirst | hrest
  · exact hfirst
  · have hlt := (List.pairwise_append.1 h).2.2 last (List.mem_of_getLast? hlast) seq hrest
    omega

theorem le_getLast_of_increasing {numbers : List ℕ} (h : numbers.Pairwise (· < ·))
    {last seq : ℕ} (hlast : numbers.getLast? = some last) (hseq : seq ∈ numbers) :
    seq ≤ last := by
  have hsplit := List.dropLast_append_getLast? last hlast
  rw [← hsplit] at h hseq
  rcases List.mem_append.1 hseq with hinit | hend
  · exact le_of_lt ((List.pairwise_append.1 h).2.2 seq hinit last (List.mem_singleton.2 rfl))
  · rw [List.mem_singleton.1 hend]

theorem clampTailEvents_pos (tailEvents : Option ℕ) : 1 ≤ clampTailEvents tailEvents :=
  le_max_left _ _

variable {window : ReplayWindow} {afterSeq head tailEvents : ℕ} {snapshot : TailSnapshot}
  {epoch : Uuid}

/-- What the window misses lies in the range of its gap. -/
theorem EventRing.WindowBetween.in_gap (h : EventRing.WindowBetween window afterSeq head)
    (hcap : head ≤ u64Max) (hhead : snapshot.headSeq = head) {cursor : Option Cursor} {seq : ℕ}
    (hafter : afterSeq < seq) (hle : seq ≤ head) (hmissing : seq ∉ seqs window.events) :
    ∃ gap ∈ (window.gap.map
        (liveGapRange { snapshot := snapshot, replay := window } cursor)).toList,
      gap.firstSeq ≤ seq ∧ seq ≤ gap.lastSeq := by
  obtain ⟨gap, hgap, hbefore⟩ := h.missing seq hafter hle hmissing
  have hrequested := (h.gap gap hgap).2
  refine ⟨liveGapRange { snapshot := snapshot, replay := window } cursor gap, ?_, ?_, ?_⟩
  · simp [hgap]
  · simp only [liveGapRange, hrequested, Option.getD_some]
    rw [satAdd_eq_add (by omega : afterSeq + 1 ≤ u64Max)]
    exact hafter
  · simp only [liveGapRange]
    apply le_max_of_le_left
    cases hfirst : gap.firstAvailableSeq with
    | none =>
        simp only [hhead]
        exact hle
    | some first =>
        have hlt := hbefore first hfirst
        simp only
        omega

/-- A page which cannot hold the window ends with the last event that fits. -/
theorem boundedLiveResponse_limited {attach : AttachState} {cursor : Cursor}
    (hlimited : tailEvents < attach.replay.events.length) {last : TimelineEvent}
    (hlast : (attach.replay.events.take tailEvents).getLast? = some last) :
    boundedLiveResponse attach (some cursor) tailEvents =
      { events := attach.replay.events.take tailEvents
        nextCursor := some
          { epoch := attach.snapshot.daemonEpoch, afterSeq := last.seq }
        truncated := true
        firstAvailableSeq := attach.snapshot.ringOldestSeq
        gaps := (attach.replay.gap.map (liveGapRange attach (some cursor))).toList } := by
  simp [boundedLiveResponse, hlimited, hlast]

theorem boundedLiveResponse_whole {attach : AttachState} {cursor : Cursor}
    (hwhole : ¬tailEvents < attach.replay.events.length) :
    boundedLiveResponse attach (some cursor) tailEvents =
      { events := attach.replay.events
        nextCursor := some
          { epoch := attach.snapshot.daemonEpoch, afterSeq := attach.snapshot.headSeq }
        truncated := attach.replay.gap.isSome
        firstAvailableSeq := attach.snapshot.ringOldestSeq
        gaps := (attach.replay.gap.map (liveGapRange attach (some cursor))).toList } := by
  simp [boundedLiveResponse, hwhole]

theorem boundedLiveResponse_covers (h : EventRing.WindowBetween window afterSeq head)
    (hcap : head ≤ u64Max) (hhead : snapshot.headSeq = head)
    (hepoch : snapshot.daemonEpoch = epoch) (htail : 1 ≤ tailEvents) (cursor : Cursor) :
    ∃ next, PageCovers
      (boundedLiveResponse { snapshot := snapshot, replay := window } (some cursor) tailEvents)
      epoch afterSeq next head := by
  by_cases hlimited : tailEvents < window.events.length
  · have htake : seqs (window.events.take tailEvents) = (seqs window.events).take tailEvents := by
      simp only [seqs, List.map_take]
    have hnonempty : window.events.take tailEvents ≠ [] := by
      intro hnil
      have hlength := congrArg List.length hnil
      simp only [List.length_take, List.length_nil] at hlength
      omega
    have hlast := List.getLast?_eq_some_getLast hnonempty
    generalize (window.events.take tailEvents).getLast hnonempty = last at hlast
    have hnumber : ((seqs window.events).take tailEvents).getLast? = some last.seq := by
      rw [← htake, seqs, List.getLast?_map, hlast]
      rfl
    have hsorted : ((seqs window.events).take tailEvents).Pairwise (· < ·) :=
      h.increasing.sublist (List.take_sublist _ _)
    have hlastBounds := h.bounds last.seq
      (List.mem_of_mem_take (List.mem_of_getLast? hnumber))
    rw [boundedLiveResponse_limited hlimited hlast]
    refine ⟨last.seq, ?_⟩
    constructor
    · simp [hepoch]
    · rw [htake]
      exact hsorted
    · intro seq hseq
      rw [htake] at hseq
      exact ⟨(h.bounds seq (List.mem_of_mem_take hseq)).1,
        le_getLast_of_increasing hsorted hnumber hseq⟩
    · intro seq hafter hle
      by_cases hseq : seq ∈ seqs window.events
      · left
        rw [htake]
        apply count_eq_one_of_increasing hsorted
        exact mem_take_of_le_getLast h.increasing hnumber hseq hle
      · right
        exact h.in_gap hcap hhead hafter (by omega) hseq
    · omega
    · exact hlastBounds.2
    · intro _
      exact hlastBounds.1
    · intro htruncated
      cases htruncated
  · rw [boundedLiveResponse_whole hlimited]
    refine ⟨head, ?_⟩
    constructor
    · simp [hepoch, hhead]
    · exact h.increasing
    · exact h.bounds
    · intro seq hafter hle
      by_cases hseq : seq ∈ seqs window.events
      · left
        exact count_eq_one_of_increasing h.increasing hseq
      · right
        exact h.in_gap hcap hhead hafter hle hseq
    · exact h.le
    · exact le_refl head
    · intro htruncated
      obtain ⟨gap, hgap⟩ := Option.isSome_iff_exists.1 htruncated
      exact (h.gap gap hgap).1
    · intro _
      rfl

/-! ## Runs -/

namespace TailWorld

/-- How often the counter still moves. -/
def appends (steps : List TailStep) : ℕ := steps.countP TailStep.isAppend

/-- What holds of a port as long as its counter did not saturate. -/
structure Sound (world : TailWorld) : Prop where
  holds : world.ring.Holds world.seq
  size : world.ring.maxEvents ≤ usizeMax
  epoch : world.published.daemonEpoch = world.daemonEpoch
  head_le : world.published.headSeq ≤ world.seq
  seq_le : world.seq ≤ u64Max

theorem sound_start (epoch : Uuid) {maxEvents : ℕ} (hsize : maxEvents ≤ usizeMax)
    (maxBytes : ℕ) : (start epoch maxEvents maxBytes).Sound := by
  constructor
  · exact EventRing.holds_new maxEvents maxBytes
  · have hpos : 1 ≤ usizeMax := by
      decide
    exact max_le hsize hpos
  · rfl
  · exact le_refl 0
  · exact Nat.zero_le _

variable {world : TailWorld}

theorem Sound.step (h : world.Sound) (step : TailStep)
    (hroom : world.seq + appends [step] ≤ u64Max) :
    (world.step step).Sound ∧ (world.step step).seq = world.seq + appends [step] ∧
      (world.step step).daemonEpoch = world.daemonEpoch ∧
      world.published.headSeq ≤ (world.step step).published.headSeq := by
  cases step with
  | append event size =>
      have hseq : satAdd u64Max world.seq 1 = world.seq + 1 := satAdd_eq_add hroom
      refine ⟨?_, hseq, rfl, le_refl _⟩
      constructor
      · simp only [TailWorld.step, hseq]
        exact h.holds.push rfl size
      · exact h.size
      · exact h.epoch
      · simp only [TailWorld.step, hseq]
        exact Nat.le_succ_of_le h.head_le
      · simp only [TailWorld.step, hseq]
        exact hroom
  | publish =>
      refine ⟨?_, rfl, rfl, h.head_le⟩
      constructor
      · exact h.holds
      · exact h.size
      · rfl
      · exact le_refl _
      · exact h.seq_le
  | markDurable seq =>
      refine ⟨?_, rfl, rfl, le_refl _⟩
      constructor
      · exact h.holds.markDurable seq
      · exact h.size
      · exact h.epoch
      · exact h.head_le
      · exact h.seq_le

theorem appends_cons (step : TailStep) (steps : List TailStep) :
    appends (step :: steps) = appends [step] + appends steps := by
  simp only [appends, List.countP_cons, List.countP_nil]
  omega

theorem Sound.run (h : world.Sound) (steps : List TailStep)
    (hroom : world.seq + appends steps ≤ u64Max) :
    (world.run steps).Sound ∧ (world.run steps).seq = world.seq + appends steps ∧
      (world.run steps).daemonEpoch = world.daemonEpoch ∧
      world.published.headSeq ≤ (world.run steps).published.headSeq := by
  induction steps generalizing world with
  | nil => exact ⟨h, rfl, rfl, le_refl _⟩
  | cons step steps ih =>
      rw [appends_cons] at hroom
      obtain ⟨hsound, hseq, hepoch, hhead⟩ := h.step step (by omega)
      obtain ⟨hsound', hseq', hepoch', hhead'⟩ := ih hsound (by omega)
      refine ⟨hsound', ?_, hepoch'.trans hepoch, hhead.trans hhead'⟩
      rw [appends_cons, ← Nat.add_assoc, ← hseq]
      exact hseq'

end TailWorld

/-! ## Calls -/

open TailWorld (appends)

theorem liveTail_ok {cursor : Cursor} {tail : Option ℕ} {ring : EventRing}
    {page : EventQueryResponse} (hpage : liveTail snapshot ring (some cursor) tail = .ok page) :
    ∃ window, ring.replay snapshot.daemonEpoch (some cursor) snapshot.headSeq usizeMax =
        .ok window ∧
      page = boundedLiveResponse { snapshot := snapshot, replay := window } (some cursor)
        (clampTailEvents tail) := by
  obtain ⟨attach, hattach, hbounded⟩ := Except.exists_of_bind_ok hpage
  obtain ⟨window, hwindow, hstate⟩ := Except.exists_of_bind_ok hattach
  cases hstate
  cases hbounded
  exact ⟨window, hwindow, rfl⟩

variable {world : TailWorld}

/-- A call which reads the ring some steps after the snapshot. -/
theorem liveTail_covers (h : world.Sound) (between : List TailStep)
    (hroom : world.seq + appends between ≤ u64Max) {tail : Option ℕ}
    {page : EventQueryResponse}
    (hpage : liveTail world.published (world.run between).ring
      (some { epoch := world.daemonEpoch, afterSeq := afterSeq }) tail = .ok page) :
    ∃ next, PageCovers page world.daemonEpoch afterSeq next world.published.headSeq := by
  obtain ⟨hsound, hseq, -, -⟩ := h.run between hroom
  obtain ⟨window, hwindow, hresponse⟩ := liveTail_ok hpage
  have hhead := h.head_le
  have hcap := h.seq_le
  rw [h.epoch] at hwindow
  have hbetween := hsound.holds.replay hsound.size (by omega) hsound.seq_le hwindow
  rw [hresponse]
  exact boundedLiveResponse_covers hbetween (by omega) rfl h.epoch (clampTailEvents_pos tail) _

theorem liveTail_exists (snapshot : TailSnapshot) (ring : EventRing) (tail : Option ℕ)
    (hepoch : snapshot.daemonEpoch = epoch) (hle : afterSeq ≤ snapshot.headSeq) :
    ∃ page, liveTail snapshot ring (some { epoch := epoch, afterSeq := afterSeq }) tail =
      .ok page := by
  have hreplay : ∃ window, ring.replay snapshot.daemonEpoch
      (some { epoch := epoch, afterSeq := afterSeq }) snapshot.headSeq usizeMax = .ok window := by
    have hbehind : ¬snapshot.headSeq < afterSeq := by
      omega
    simp only [EventRing.replay, hepoch, ne_eq, not_true_eq_false, if_false, hbehind]
    split
    · exact ⟨_, rfl⟩
    · split <;> exact ⟨_, rfl⟩
  obtain ⟨window, hwindow⟩ := hreplay
  refine ⟨boundedLiveResponse { snapshot := snapshot, replay := window }
    (some { epoch := epoch, afterSeq := afterSeq }) (clampTailEvents tail), ?_⟩
  simp only [liveTail, attachRing, Option.isSome_some, if_true, hwindow]
  rfl

/-! ## Pages -/

/-- Pages of which each begins where the one before ended. -/
inductive Paged (epoch : Uuid) : ℕ → List EventQueryResponse → ℕ → Prop
  | done (last : ℕ) : Paged epoch last [] last
  | page {afterSeq next head last : ℕ} {page : EventQueryResponse}
      {rest : List EventQueryResponse} (hpage : PageCovers page epoch afterSeq next head)
      (hrest : Paged epoch next rest last) : Paged epoch afterSeq (page :: rest) last

namespace Paged

variable {pages : List EventQueryResponse} {last : ℕ}

theorem le (h : Paged epoch afterSeq pages last) : afterSeq ≤ last := by
  induction h with
  | done last => exact le_refl last
  | page hpage hrest ih => exact hpage.le_next.trans ih

theorem bounds (h : Paged epoch afterSeq pages last) :
    ∀ seq ∈ seqs (pages.flatMap EventQueryResponse.events), afterSeq < seq ∧ seq ≤ last := by
  induction h with
  | done last => simp [seqs]
  | @page afterSeq next head last page rest hpage hrest ih =>
      intro seq hseq
      simp only [seqs, List.flatMap_cons, List.map_append, List.mem_append] at hseq
      have hnext := hpage.le_next
      have hlast := hrest.le
      rcases hseq with hseq | hseq
      · have hbounds := hpage.bounds seq hseq
        omega
      · have hbounds := ih seq hseq
        omega

theorem increasing (h : Paged epoch afterSeq pages last) :
    (seqs (pages.flatMap EventQueryResponse.events)).Pairwise (· < ·) := by
  induction h with
  | done last => simp [seqs]
  | @page afterSeq next head last page rest hpage hrest ih =>
      simp only [seqs, List.flatMap_cons, List.map_append]
      apply List.pairwise_append.2
      refine ⟨hpage.increasing, ih, ?_⟩
      intro earlier hearlier later hlater
      have hfirst := (hpage.bounds earlier hearlier).2
      have hsecond := (hrest.bounds later hlater).1
      omega

theorem covered (h : Paged epoch afterSeq pages last) {seq : ℕ} (hafter : afterSeq < seq)
    (hle : seq ≤ last) :
    (seqs (pages.flatMap EventQueryResponse.events)).count seq = 1 ∨
      ∃ page ∈ pages, ∃ gap ∈ page.gaps, gap.firstSeq ≤ seq ∧ seq ≤ gap.lastSeq := by
  have hincreasing := h.increasing
  have hmember : seq ∈ seqs (pages.flatMap EventQueryResponse.events) ∨
      ∃ page ∈ pages, ∃ gap ∈ page.gaps, gap.firstSeq ≤ seq ∧ seq ≤ gap.lastSeq := by
    clear hincreasing
    induction h with
    | done last => omega
    | @page afterSeq next head last page rest hpage hrest ih =>
        by_cases hnext : seq ≤ next
        · rcases hpage.covered seq hafter hnext with hone | hgap
          · left
            have hevent : seq ∈ seqs page.events := by
              apply List.count_pos_iff.1
              omega
            simp only [seqs, List.flatMap_cons, List.map_append, List.mem_append]
            exact Or.inl hevent
          · right
            exact ⟨page, List.mem_cons_self, hgap⟩
        · rcases ih (by omega) hle with hevent | hgap
          · left
            simp only [seqs, List.flatMap_cons, List.map_append, List.mem_append]
            exact Or.inr hevent
          · right
            obtain ⟨other, hother, hgap⟩ := hgap
            exact ⟨other, List.mem_cons_of_mem _ hother, hgap⟩
  rcases hmember with hevent | hgap
  · exact Or.inl (count_eq_one_of_increasing hincreasing hevent)
  · exact Or.inr hgap

end Paged

/-- Everything that happens in some calls. -/
def callSteps (calls : List TailCall) : List TailStep :=
  calls.flatMap fun call => call.before ++ call.between

theorem appends_append (first second : List TailStep) :
    appends (first ++ second) = appends first + appends second :=
  List.countP_append

theorem followTail_paged (calls : List TailCall) (h : world.Sound)
    (hroom : world.seq + appends (callSteps calls) ≤ u64Max) {pages : List EventQueryResponse}
    {final : TailWorld} {last : Cursor}
    (hfollow : followTail calls world { epoch := world.daemonEpoch, afterSeq := afterSeq } =
      .ok (pages, final, last)) :
    last.epoch = world.daemonEpoch ∧ Paged world.daemonEpoch afterSeq pages last.afterSeq ∧
      final.Sound ∧ final.daemonEpoch = world.daemonEpoch := by
  induction calls generalizing world afterSeq pages with
  | nil =>
      cases hfollow
      exact ⟨rfl, .done _, h, rfl⟩
  | cons call calls ih =>
      simp only [callSteps, List.flatMap_cons, appends_append] at hroom
      obtain ⟨hbefore, hseq, hepoch, -⟩ := h.run call.before (by omega)
      obtain ⟨hbetween, hseq', hepoch', -⟩ := hbefore.run call.between (by omega)
      obtain ⟨page, hpage, hnext⟩ := Except.exists_of_bind_ok hfollow
      obtain ⟨⟨rest, reached, cursor⟩, hrest, hresult⟩ := Except.exists_of_bind_ok hnext
      rw [← hepoch] at hpage
      obtain ⟨next, hcovers⟩ := liveTail_covers hbefore call.between (by omega) hpage
      rw [hcovers.nextCursor, Option.getD_some, ← hepoch'] at hrest
      cases hresult
      have hroom' : ((world.run call.before).run call.between).seq +
          appends (callSteps calls) ≤ u64Max := by
        simp only [callSteps]
        omega
      obtain ⟨hlast, hpaged, hsound, hfinal⟩ := ih hbetween hroom' hrest
      have hsame := hepoch'.trans hepoch
      rw [hsame] at hlast hpaged hfinal
      rw [hepoch] at hcovers
      exact ⟨hlast, .page hcovers hpaged, hsound, hfinal⟩

/-- While nothing is appended the cursor reaches the head. -/
theorem followTail_reaches (h : world.Sound) (tail : Option ℕ)
    (hle : afterSeq ≤ world.published.headSeq) :
    ∃ count ≤ world.published.headSeq - afterSeq, ∃ pages,
      followTail (List.replicate count { before := [], between := [], tailEvents := tail }) world
          { epoch := world.daemonEpoch, afterSeq := afterSeq } =
        .ok (pages, world,
          { epoch := world.daemonEpoch, afterSeq := world.published.headSeq }) := by
  -- the distance from the head shrinks with each page
  induction hdistance : world.published.headSeq - afterSeq using Nat.strong_induction_on
    generalizing afterSeq with
  | _ distance ih =>
      by_cases hend : afterSeq = world.published.headSeq
      · refine ⟨0, Nat.zero_le _, [], ?_⟩
        rw [hend]
        rfl
      · obtain ⟨page, hpage⟩ := liveTail_exists world.published world.ring tail
          h.epoch hle
        have hstay : world.seq + appends [] ≤ u64Max := h.seq_le
        obtain ⟨next, hcovers⟩ := liveTail_covers h [] hstay hpage
        have hforward : afterSeq < next := by
          cases htruncated : page.truncated with
          | true => exact hcovers.progress htruncated
          | false =>
              rw [hcovers.complete htruncated]
              omega
        have hnext := hcovers.next_le
        obtain ⟨count, hcount, pages, hpages⟩ :=
          ih (world.published.headSeq - next) (by omega) hnext rfl
        refine ⟨count + 1, by omega, page :: pages, ?_⟩
        simp only [List.replicate_succ, followTail, TailWorld.run, List.foldl_nil]
        rw [hpage]
        simp only [bind, Except.bind]
        rw [hcovers.nextCursor, Option.getD_some, hpages]
        rfl

/-- Pages which follow one another, whatever happens at the port before and
inside of each call, skip nothing as long as the counter did not saturate; and
from wherever they stop the head is reached. -/
theorem livePages_skip_nothing (epoch : Uuid) (maxEvents maxBytes afterSeq : ℕ)
    (calls : List TailCall) (pages : List EventQueryResponse) (world : TailWorld)
    (last : Cursor) (hsize : maxEvents ≤ usizeMax)
    (hroom : appends (callSteps calls) ≤ u64Max)
    (hfollow : followTail calls (TailWorld.start epoch maxEvents maxBytes)
      { epoch := epoch, afterSeq := afterSeq } = .ok (pages, world, last)) :
    Paged epoch afterSeq pages last.afterSeq ∧
      (seqs (pages.flatMap EventQueryResponse.events)).Pairwise (· < ·) ∧
      (∀ seq, afterSeq < seq → seq ≤ last.afterSeq →
        (seqs (pages.flatMap EventQueryResponse.events)).count seq = 1 ∨
          ∃ page ∈ pages, ∃ gap ∈ page.gaps, gap.firstSeq ≤ seq ∧ seq ≤ gap.lastSeq) ∧
      ∀ tail, last.afterSeq ≤ world.published.headSeq →
        ∃ count ≤ world.published.headSeq - last.afterSeq, ∃ others,
          followTail (List.replicate count { before := [], between := [], tailEvents := tail })
              world last =
            .ok (others, world, { epoch := epoch, afterSeq := world.published.headSeq }) := by
  have hstart := TailWorld.sound_start epoch hsize maxBytes
  have hroom' : (TailWorld.start epoch maxEvents maxBytes).seq + appends (callSteps calls) ≤
      u64Max := by
    simpa [TailWorld.start] using hroom
  obtain ⟨hlast, hpaged, hsound, hepoch⟩ := followTail_paged calls hstart hroom' hfollow
  refine ⟨hpaged, hpaged.increasing, fun seq => hpaged.covered, ?_⟩
  intro tail hle
  have hreach := followTail_reaches hsound tail hle
  have hcursor : last = { epoch := world.daemonEpoch, afterSeq := last.afterSeq } := by
    cases last
    simp only [hepoch] at hlast ⊢
    rw [← hlast]
  rw [← hcursor, hepoch] at hreach
  exact hreach

def sampleRx : TimelineEvent where
  port := "ttyUSB0"
  daemonEpoch := 7
  seq := 0
  generation := 1
  wallTimeNs := 0
  monotonicTimeNs := 0
  kind := .rx
  direction := .rx
  actor := none
  runId := none
  operationId := none
  streamOffsetStart := some 0
  streamOffsetEnd := some 1
  data := [65]
  metadata := []
  durable := false

/-- Three events in a ring of two, the last of them appended behind the snapshot. -/
def evictedCalls : List TailCall :=
  [{ before := [.append sampleRx 1, .append sampleRx 1, .publish]
     between := [.append sampleRx 1]
     tailEvents := some 1 },
   { before := [.publish], between := [], tailEvents := some 1 }]

/-- The numbers and gaps of the pages, and the cursor behind them. -/
def pagesSummary (calls : List TailCall) (world : TailWorld) (cursor : Cursor) :
    Option (List ℕ × List (ℕ × ℕ) × ℕ) :=
  match followTail calls world cursor with
  | .ok (pages, _, last) =>
      some (seqs (pages.flatMap EventQueryResponse.events),
        (pages.flatMap EventQueryResponse.gaps).map fun gap => (gap.firstSeq, gap.lastSeq),
        last.afterSeq)
  | .error _ => none

theorem pagesSummary_some {calls : List TailCall} {cursor : Cursor}
    {summary : List ℕ × List (ℕ × ℕ) × ℕ} (hsummary : pagesSummary calls world cursor = some summary) :
    ∃ pages final last, followTail calls world cursor = .ok (pages, final, last) ∧
      seqs (pages.flatMap EventQueryResponse.events) = summary.1 ∧
      ((pages.flatMap EventQueryResponse.gaps).map fun gap => (gap.firstSeq, gap.lastSeq)) =
        summary.2.1 ∧
      last.afterSeq = summary.2.2 := by
  unfold pagesSummary at hsummary
  cases hfollow : followTail calls world cursor with
  | error error =>
      rw [hfollow] at hsummary
      cases hsummary
  | ok result =>
      obtain ⟨pages, final, last⟩ := result
      rw [hfollow] at hsummary
      cases hsummary
      exact ⟨pages, final, last, rfl, rfl, rfl, rfl⟩

/-- The first event leaves the ring behind the snapshot: it is in the gap, and the
two others come in pages of one. -/
theorem livePages_skip_nothing_evicted :
    ∃ pages world last, followTail evictedCalls (TailWorld.start 7 2 1000)
        { epoch := 7, afterSeq := 0 } = .ok (pages, world, last) ∧
      seqs (pages.flatMap EventQueryResponse.events) = [2, 3] ∧ last.afterSeq = 3 ∧
      Paged 7 0 pages last.afterSeq := by
  have hsummary : pagesSummary evictedCalls (TailWorld.start 7 2 1000)
      { epoch := 7, afterSeq := 0 } = some ([2, 3], [(1, 1)], 3) := by
    decide
  obtain ⟨pages, world, last, hfollow, hseqs, -, hlast⟩ := pagesSummary_some hsummary
  exact ⟨pages, world, last, hfollow, hseqs, hlast,
    (livePages_skip_nothing 7 2 1000 0 evictedCalls pages world last (by decide) (by decide)
      hfollow).1⟩

/-! ## Saturation -/

theorem EventRing.evict_weightless (maxEvents maxBytes : ℕ) (entries : List RingEntry) :
    (∀ entry ∈ entries, entry.size = 0) →
    evict maxEvents maxBytes entries 0 = (entries.drop (entries.length - maxEvents), 0) := by
  induction entries with
  | nil => simp [evict]
  | cons entry rest ih =>
      intro hsizes
      have hrest := ih fun other hother => hsizes other (List.mem_cons_of_mem _ hother)
      simp only [evict, Nat.not_lt_zero, or_false, hsizes entry List.mem_cons_self]
      split
      · rename_i hlong
        have hcount : (entry :: rest).length - maxEvents = (rest.length - maxEvents) + 1 := by
          simp only [List.length_cons] at hlong ⊢
          omega
        rw [hrest, hcount, List.drop_succ_cons]
      · rename_i hfits
        rw [Nat.sub_eq_zero_of_le (Nat.not_lt.1 hfits), List.drop_zero]

/-- The ring of two after many events without weight. -/
def weightlessWorld (count : ℕ) : TailWorld where
  daemonEpoch := 7
  ring := {
    events := [{ event := { sampleRx with seq := min (count + 1) u64Max }, size := 0 },
      { event := { sampleRx with seq := min (count + 2) u64Max }, size := 0 }]
    bytes := 0
    maxEvents := 2
    maxBytes := 1 }
  seq := min (count + 2) u64Max
  published := { daemonEpoch := 7, headSeq := 0, ringOldestSeq := none }

theorem run_weightless (count : ℕ) :
    (TailWorld.start 7 2 1).run (List.replicate (count + 2) (.append sampleRx 0)) =
      weightlessWorld count := by
  induction count with
  | zero => rfl
  | succ count ih =>
      have hsplit : List.replicate (count + 1 + 2) (TailStep.append sampleRx 0) =
          List.replicate (count + 2) (.append sampleRx 0) ++ [.append sampleRx 0] :=
        List.replicate_succ'
      rw [hsplit]
      simp only [TailWorld.run] at ih
      simp only [TailWorld.run, List.foldl_append, List.foldl_cons, List.foldl_nil, ih]
      have hseq : satAdd u64Max (min (count + 2) u64Max) 1 = min (count + 3) u64Max := by
        simp only [satAdd]
        omega
      have hweight : satAdd u64Max 0 0 = 0 := by
        decide
      simp only [TailWorld.step, weightlessWorld, hseq, EventRing.push, hweight,
        List.cons_append, List.nil_append]
      rw [EventRing.evict_weightless]
      · simp
      · simp

/-- After 2^64 events two of them have the same number, and a page returns both. -/
theorem livePages_repeat_at_cap :
    ∃ pages world last,
      followTail [{ before := List.replicate (u64Max + 1) (.append sampleRx 0) ++ [.publish]
                    between := []
                    tailEvents := none }]
          (TailWorld.start 7 2 1) { epoch := 7, afterSeq := u64Max - 1 } =
        .ok (pages, world, last) ∧
      ¬(seqs (pages.flatMap EventQueryResponse.events)).Pairwise (· < ·) ∧
      u64Max ≤ last.afterSeq ∧ (seqs (pages.flatMap EventQueryResponse.events)).count u64Max = 2 ∧
      pages.flatMap EventQueryResponse.gaps = [] := by
  have hcount : u64Max + 1 = (u64Max - 1) + 2 := by
    decide
  have hrun := run_weightless (u64Max - 1)
  have hsummary : pagesSummary [{ before := [.publish], between := [], tailEvents := none }]
      (weightlessWorld (u64Max - 1)) { epoch := 7, afterSeq := u64Max - 1 } =
      some ([u64Max, u64Max], [], u64Max) := by
    decide
  obtain ⟨pages, world, last, hfollow, hseqs, hgaps, hlast⟩ := pagesSummary_some hsummary
  refine ⟨pages, world, last, ?_, ?_, ?_, ?_, ?_⟩
  · rw [hcount]
    simp only [followTail, TailWorld.run, List.foldl_append] at hfollow ⊢
    simp only [TailWorld.run] at hrun
    rw [hrun]
    exact hfollow
  · rw [hseqs]
    decide
  · exact le_of_eq hlast.symm
  · rw [hseqs]
    decide
  · exact List.map_eq_nil_iff.1 hgaps

/-! ## In the actor -/

namespace SlotActor

variable (s : SlotActor)

/-- The live tail of `t` comes from that of `s` by steps. -/
def TailReaches (s t : SlotActor) : Prop :=
  ∃ steps, t.tailWorld = s.tailWorld.run steps

theorem TailReaches.trans {s t u : SlotActor} (hst : s.TailReaches t) (htu : t.TailReaches u) :
    s.TailReaches u := by
  obtain ⟨first, hfirst⟩ := hst
  obtain ⟨second, hsecond⟩ := htu
  refine ⟨first ++ second, ?_⟩
  rw [hsecond, hfirst]
  simp only [TailWorld.run, List.foldl_append]

theorem tailWorld_markLoggingDegradedAt (error : String) (seq : ℕ) :
    (s.markLoggingDegradedAt error seq).1.tailWorld = s.tailWorld := by
  unfold markLoggingDegradedAt
  split <;> rfl

theorem tailWorld_trackJournalAck (seq : ℕ) (ack : JournalAck) (permit alreadyTimedOut : Bool) :
    (s.trackJournalAck seq ack permit alreadyTimedOut).1.tailWorld = s.tailWorld := by
  unfold trackJournalAck
  split <;> rfl

theorem tailWorld_journalEvent (eventSeq : ℕ) :
    (s.journalEvent eventSeq).1.tailWorld = s.tailWorld := by
  have hmark : ∀ (s : SlotActor) (error : String),
      (degradation error (s.markLoggingDegraded error)).1.tailWorld = s.tailWorld :=
    fun s error => s.tailWorld_markLoggingDegradedAt error _
  unfold journalEvent
  cases s.answer.journal with
  | refused error => exact hmark s error
  | accepted ack permit =>
      simp only
      split
      · cases ack with
        | durable => rfl
        | failed error => exact hmark s error
        | late result => exact (tailWorld_trackJournalAck _ _ _ _ _).trans (hmark s _)
      · have htrack := s.tailWorld_trackJournalAck eventSeq ack permit false
        cases htracked : s.trackJournalAck eventSeq ack permit false with
        | mk tracked outcome =>
            rw [htracked] at htrack
            cases outcome with
            | ok _ => exact htrack
            | error error => exact (hmark tracked error).trans htrack

theorem tailReaches_publishNondurableLoggingEvent (error : String) :
    s.TailReaches (s.publishNondurableLoggingEvent error) :=
  ⟨[.append {
      port := s.config.port
      daemonEpoch := s.daemonEpoch
      seq := s.nextSeq
      generation := s.port.generation
      wallTimeNs := s.ask.answer.wall
      monotonicTimeNs := s.ask.monotonicTimeNs
      kind := .loggingDegraded
      direction := .none
      actor := some systemActor
      runId := s.authority.activeRun.map RunInfo.id
      operationId := none
      streamOffsetStart := none
      streamOffsetEnd := none
      data := []
      metadata := [("error", .str error)]
      durable := false } s.ask.answer.eventSize, .publish], rfl⟩

/-- An emission is an append and the snapshot behind it, and perhaps a note. -/
theorem tailReaches_emitInner (kind : EventKind) (direction : Direction) (data : Bytes)
    (actor : Option Actor) (operationId runId : Option Uuid) (metadata : Metadata) :
    s.TailReaches (s.emitInner kind direction data actor operationId runId metadata) := by
  unfold emitInner
  extract_lets s₁ eventSeq offsets moved s₂ journaled event delivered
  have hring : journaled.1.tailWorld = s₂.tailWorld := s₂.tailWorld_journalEvent eventSeq
  have hmoved : s₂.tailWorld = { s.tailWorld with seq := s.nextSeq } := by
    simp only [s₂, offsets, streamOffsets]
    cases direction <;> rfl
  have hdelivered : s.TailReaches delivered := by
    refine ⟨[.append event journaled.1.answer.eventSize, .publish], ?_⟩
    have hdeliver : delivered.tailWorld =
        TailWorld.step { journaled.1.tailWorld with
          ring := journaled.1.tailWorld.ring.push event journaled.1.answer.eventSize }
          .publish := rfl
    rw [hdeliver, hring, hmoved]
    rfl
  split
  · exact hdelivered.trans (tailReaches_publishNondurableLoggingEvent _ _)
  · exact hdelivered

theorem tailReaches_handleJournalAckResult (seq : ℕ) (outcome : JournalAckOutcome) :
    s.TailReaches (s.handleJournalAckResult seq outcome) := by
  have hdegrade : ∀ error : String, s.TailReaches
      (let marked := s.markLoggingDegradedAt error seq
       if marked.2 then marked.1.publishNondurableLoggingEvent error else marked.1) := by
    intro error
    have hmarked : s.TailReaches (s.markLoggingDegradedAt error seq).1 :=
      ⟨[], s.tailWorld_markLoggingDegradedAt error seq⟩
    simp only
    split
    · exact hmarked.trans (tailReaches_publishNondurableLoggingEvent _ _)
    · exact hmarked
  cases outcome with
  | durable =>
      simp only [handleJournalAckResult]
      split
      · refine ⟨[.markDurable seq, .publish], ?_⟩
        split <;> rfl
      · exact ⟨[.markDurable seq], rfl⟩
  | failed error => exact hdegrade error
  | timedOut => exact hdegrade _

end SlotActor

end SerialPlatform
