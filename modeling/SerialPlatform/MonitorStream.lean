import SerialPlatform.ExceptBind
import SerialPlatform.MonitorLiterals

/-!
# Matching in a stream

The bytes of a port come in events, as they were read.  What a monitor takes for the
matches of a literal does not depend on how the bytes were divided.
-/

namespace SerialPlatform.Monitor

/-! ## Events -/

/-- Events which carry the bytes of a stream from an offset on, without a gap. -/
def Contiguous : ℕ → List TimelineEvent → Prop
  | _, [] => True
  | offset, event :: events =>
      event.streamOffsetStart = some offset ∧
        event.streamOffsetEnd = some (offset + event.data.length) ∧
        offset + event.data.length ≤ u64Max ∧
        Contiguous (offset + event.data.length) events

def streamOf (events : List TimelineEvent) : Bytes := events.flatMap TimelineEvent.data

/-- The event with a byte of the stream. -/
def HoldsByte (offset : ℕ) (events : List TimelineEvent) (position seq : ℕ) : Prop :=
  ∃ before event after, events = before ++ event :: after ∧ event.seq = seq ∧
    offset + (streamOf before).length ≤ position ∧
    position < offset + (streamOf before).length + event.data.length

/-- The state of a matcher behind some events. -/
def StreamMatcher.after (matcher : StreamMatcher) (events : List TimelineEvent) : StreamMatcher :=
  events.foldl (fun matcher event => (matcher.push event).2) matcher

/-- The ranges of the stream which a literal's search takes in the window. -/
def CompiledCondition.literalRanges (condition : CompiledCondition) (bytes : Bytes)
    (baseOffset : ℕ) : List (ℕ × ℕ) :=
  match condition.compiled with
  | .regex .. => []
  | .literal pattern =>
      (literalStops bytes pattern
        (relativeOffset condition.searchAfter baseOffset bytes.length)).map fun stop =>
          (absoluteOffset baseOffset (stop - pattern.length), absoluteOffset baseOffset stop)

/-- The ranges which a condition takes when an event is pushed. -/
def StreamMatcher.consumed (matcher : StreamMatcher) (index : ℕ) (event : TimelineEvent) :
    List (ℕ × ℕ) :=
  if event.data = [] then []
  else
    let window := matcher.extend event
    (window.matchers[index]?.map fun condition =>
      condition.literalRanges window.bytes window.baseOffset).getD []

/-- The ranges which the conditions report when an event is pushed. -/
def StreamMatcher.reported (matcher : StreamMatcher) (event : TimelineEvent) : List (ℕ × ℕ) :=
  if event.data = [] then []
  else
    let window := matcher.extend event
    window.scans.filterMap fun scan => scan.1.map fun range =>
      (absoluteOffset window.baseOffset range.1, absoluteOffset window.baseOffset range.2)

/-- The chunks of the events with bytes. -/
def chunksFrom : ℕ → List TimelineEvent → List MatchChunk
  | _, [] => []
  | offset, event :: events =>
      let stop := offset + event.data.length
      if event.data = [] then chunksFrom stop events
      else { stop := stop, seq := event.seq, wallTimeNs := event.wallTimeNs } :: chunksFrom stop events

section

variable {offset : ℕ} {events before after : List TimelineEvent} {event : TimelineEvent}
  {matcher window : StreamMatcher}

theorem streamOf_append (before after : List TimelineEvent) :
    streamOf (before ++ after) = streamOf before ++ streamOf after := List.flatMap_append

theorem streamOf_concat (before : List TimelineEvent) (event : TimelineEvent) :
    streamOf (before ++ [event]) = streamOf before ++ event.data := by
  rw [streamOf_append]
  exact congrArg (streamOf before ++ ·) (List.append_nil _)

theorem length_streamOf_cons (event : TimelineEvent) (events : List TimelineEvent) :
    (streamOf (event :: events)).length = event.data.length + (streamOf events).length := by
  rw [streamOf, List.flatMap_cons, List.length_append]
  rfl

theorem Contiguous.append_iff :
    Contiguous offset (before ++ after) ↔
      Contiguous offset before ∧ Contiguous (offset + (streamOf before).length) after := by
  induction before generalizing offset with
  | nil => exact ⟨fun h => ⟨trivial, h⟩, fun h => h.2⟩
  | cons event before ih =>
      have hlength : offset + (streamOf (event :: before)).length =
          offset + event.data.length + (streamOf before).length := by
        rw [length_streamOf_cons, Nat.add_assoc]
      rw [List.cons_append, Contiguous, Contiguous, ih, hlength]
      tauto

theorem chunksFrom_append :
    chunksFrom offset (before ++ after) =
      chunksFrom offset before ++ chunksFrom (offset + (streamOf before).length) after := by
  induction before generalizing offset with
  | nil => rfl
  | cons event before ih =>
      have hlength : offset + (streamOf (event :: before)).length =
          offset + event.data.length + (streamOf before).length := by
        rw [length_streamOf_cons, Nat.add_assoc]
      rw [List.cons_append, chunksFrom, chunksFrom, ih, hlength]
      split
      · rfl
      · rw [List.cons_append]

theorem lt_stop_of_mem_chunksFrom {chunk : MatchChunk} (h : chunk ∈ chunksFrom offset events) :
    offset < chunk.stop ∧ chunk.stop ≤ offset + (streamOf events).length := by
  induction events generalizing offset with
  | nil => cases h
  | cons event events ih =>
      have hlength := length_streamOf_cons event events
      rw [chunksFrom] at h
      split at h
      case isTrue hempty =>
        have hrest := ih h
        have hzero : event.data.length = 0 := List.length_eq_zero_iff.mpr hempty
        omega
      case isFalse hempty =>
        have hpositive : 0 < event.data.length := List.length_pos_iff.mpr hempty
        rcases List.mem_cons.mp h with rfl | h
        · dsimp only
          omega
        · have hrest := ih h
          omega

/-- The first chunk which reaches a position is that of the event with the byte. -/
theorem holdsByte_of_find? {position : ℕ} {chunk : MatchChunk} (hoffset : offset ≤ position)
    (h : (chunksFrom offset events).find? (fun chunk => position < chunk.stop) = some chunk) :
    HoldsByte offset events position chunk.seq := by
  induction events generalizing offset with
  | nil => cases h
  | cons event events ih =>
      have hcons : ∀ {offset' : ℕ}, offset' = offset + event.data.length →
          HoldsByte offset' events position chunk.seq →
          HoldsByte offset (event :: events) position chunk.seq := by
        rintro offset' rfl ⟨before, found, after, rfl, hseq, hle, hlt⟩
        have hlength := length_streamOf_cons event before
        exact ⟨event :: before, found, after, rfl, hseq, by omega, by omega⟩
      rw [chunksFrom] at h
      split at h
      case isTrue hempty =>
        refine hcons rfl (ih ?_ h)
        rw [hempty]
        exact hoffset
      case isFalse hempty =>
        by_cases hhere : position < offset + event.data.length
        · rw [List.find?_cons_of_pos (by simpa using hhere)] at h
          rw [← Option.some.inj h]
          exact ⟨[], event, events, rfl, rfl, hoffset, hhere⟩
        · rw [List.find?_cons_of_neg (by simpa using hhere)] at h
          exact hcons rfl (ih (Nat.not_lt.mp hhere) h)

theorem exists_find?_chunksFrom {position : ℕ} (hoffset : offset ≤ position)
    (hposition : position < offset + (streamOf events).length) :
    ∃ chunk, (chunksFrom offset events).find? (fun chunk => position < chunk.stop) = some chunk := by
  induction events generalizing offset with
  | nil => exact absurd hposition (Nat.not_lt.mpr hoffset)
  | cons event events ih =>
      have hlength := length_streamOf_cons event events
      rw [chunksFrom]
      split
      case isTrue hempty =>
        rw [hempty] at hlength ⊢
        exact ih hoffset (by rw [hlength] at hposition; simpa using hposition)
      case isFalse hempty =>
        by_cases hhere : position < offset + event.data.length
        · rw [List.find?_cons_of_pos (by simpa using hhere)]
          exact ⟨_, rfl⟩
        · rw [List.find?_cons_of_neg (by simpa using hhere)]
          exact ih (Nat.not_lt.mp hhere) (by omega)

end

/-! ## The window -/

/-- The window of a matcher behind some events. -/
structure Window (offset : ℕ) (events : List TimelineEvent) (window : StreamMatcher) : Prop where
  begins : offset ≤ window.baseOffset
  ends : window.baseOffset ≤ offset + (streamOf events).length
  bytes : window.bytes = (streamOf events).drop (window.baseOffset - offset)
  next : window.nextOffset = offset + (streamOf events).length
  chunks : window.chunks =
    (chunksFrom offset events).dropWhile fun chunk => chunk.stop ≤ window.baseOffset
  retained : window.baseOffset = offset ∨ maxMatchWindowBytes ≤ window.bytes.length
  bounded : offset + (streamOf events).length ≤ u64Max

/-- A matcher which has read some events, or none with any bytes. -/
structure Tracks (offset : ℕ) (events : List TimelineEvent) (matcher : StreamMatcher) :
    Prop where
  fresh : streamOf events = [] → matcher.bytes = [] ∧ matcher.chunks = []
  window : streamOf events ≠ [] → matcher.bytes ≠ [] ∧ Window offset events matcher

section

variable {offset : ℕ} {events before after : List TimelineEvent} {event : TimelineEvent}
  {matcher window : StreamMatcher}

namespace Window

theorem length_eq (h : Window offset events window) :
    window.baseOffset + window.bytes.length = offset + (streamOf events).length := by
  have hbegins := h.begins
  have hends := h.ends
  rw [h.bytes, List.length_drop]
  omega

theorem absoluteOffset_eq (h : Window offset events window) {relative : ℕ}
    (hrelative : relative ≤ window.bytes.length) :
    absoluteOffset window.baseOffset relative = window.baseOffset + relative := by
  have hlength := h.length_eq
  have hbounded := h.bounded
  exact satAdd_eq_add (by omega)

theorem find?_eq (h : Window offset events window) {p : MatchChunk → Bool}
    (hp : ∀ chunk, chunk.stop ≤ window.baseOffset → p chunk = false) :
    window.chunks.find? p = (chunksFrom offset events).find? p := by
  rw [h.chunks]
  induction chunksFrom offset events with
  | nil => rfl
  | cons chunk chunks ih =>
      by_cases hold : chunk.stop ≤ window.baseOffset
      · rw [List.dropWhile_cons_of_pos (by simpa using hold), ih,
          List.find?_cons_of_neg (by rw [hp chunk hold]; exact Bool.false_ne_true)]
      · rw [List.dropWhile_cons_of_neg (by simpa using hold)]

theorem dropWhile_dropWhile {base base' : ℕ} (hle : base ≤ base') (chunks : List MatchChunk) :
    (chunks.dropWhile fun chunk => chunk.stop ≤ base).dropWhile (fun chunk => chunk.stop ≤ base') =
      chunks.dropWhile fun chunk => chunk.stop ≤ base' := by
  induction chunks with
  | nil => rfl
  | cons chunk chunks ih =>
      by_cases hold : chunk.stop ≤ base
      · rw [List.dropWhile_cons_of_pos (by simpa using hold), ih,
          List.dropWhile_cons_of_pos (by simpa using hold.trans hle)]
      · rw [List.dropWhile_cons_of_neg (by simpa using hold)]

theorem trim (h : Window offset events window) : Window offset events window.trim := by
  unfold StreamMatcher.trim
  split
  case isTrue => exact h
  case isFalse hlong =>
    obtain ⟨remove, hremove⟩ : ∃ remove, remove = window.bytes.length - maxMatchWindowBytes :=
      ⟨_, rfl⟩
    have hlength := h.length_eq
    have hbegins := h.begins
    have hbase : absoluteOffset window.baseOffset remove = window.baseOffset + remove :=
      h.absoluteOffset_eq (by omega)
    have hback : window.baseOffset - offset + remove = window.baseOffset + remove - offset := by
      omega
    rw [← hremove]
    dsimp only
    rw [hbase]
    refine
      { begins := ?_
        ends := ?_
        bytes := ?_
        next := h.next
        chunks := ?_
        retained := Or.inr ?_
        bounded := h.bounded }
    · dsimp only
      omega
    · dsimp only
      omega
    · dsimp only
      rw [h.bytes, List.drop_drop, hback]
    · dsimp only
      rw [h.chunks, dropWhile_dropWhile (Nat.le_add_right _ _)]
    · dsimp only
      rw [List.length_drop]
      omega

end Window

theorem dropWhile_concat_of_neg {α : Type*} {p : α → Bool} {items : List α} {last : α}
    (hlast : ¬p last) : (items ++ [last]).dropWhile p = items.dropWhile p ++ [last] := by
  rw [List.dropWhile_append]
  split
  case isTrue hnone => rw [List.isEmpty_iff.mp hnone, List.dropWhile_cons_of_neg hlast,
      List.nil_append]
  case isFalse => rfl

/-- A window with the bytes of the next event. -/
theorem Tracks.extend (h : Tracks offset before matcher) (hdata : event.data ≠ [])
    (hevents : Contiguous offset (before ++ [event])) :
    Window offset (before ++ [event]) (matcher.extend event) ∧
      (matcher.extend event).matchers = matcher.matchers := by
  obtain ⟨-, hstart, hstop, hbounded, -⟩ := Contiguous.append_iff.mp hevents
  have heventStart : matcher.eventStart event = offset + (streamOf before).length := by
    rw [StreamMatcher.eventStart, hstart, Option.getD_some]
  have heventStop : matcher.eventStop event =
      offset + (streamOf before).length + event.data.length := by
    rw [StreamMatcher.eventStop, hstop, Option.getD_some]
  have hstream : (streamOf (before ++ [event])).length =
      (streamOf before).length + event.data.length := by
    rw [streamOf_concat, List.length_append]
  have hchunks : chunksFrom offset (before ++ [event]) = chunksFrom offset before ++
      [{ stop := offset + (streamOf before).length + event.data.length
         seq := event.seq
         wallTimeNs := event.wallTimeNs }] := by
    rw [chunksFrom_append, chunksFrom, if_neg hdata]
    rfl
  unfold StreamMatcher.extend
  dsimp only
  rw [heventStart, heventStop]
  by_cases hempty : streamOf before = []
  · obtain ⟨hbytes, hold⟩ := h.fresh hempty
    have hnone : chunksFrom offset before = [] := by
      rw [List.eq_nil_iff_forall_not_mem]
      intro chunk hchunk
      have hbetween := lt_stop_of_mem_chunksFrom hchunk
      rw [hempty, List.length_nil] at hbetween
      omega
    rw [if_neg (fun hgap => hgap.1 hbytes)]
    have hdropped : ¬offset + (streamOf before).length + event.data.length ≤
        offset + (streamOf before).length := by
      have hpositive := List.length_pos_iff.mpr hdata
      omega
    refine ⟨?_, rfl⟩
    refine
      { begins := ?_
        ends := ?_
        bytes := ?_
        next := ?_
        chunks := ?_
        retained := Or.inl ?_
        bounded := ?_ }
    · dsimp only
      rw [if_pos hbytes]
      exact Nat.le_add_right _ _
    · dsimp only
      rw [if_pos hbytes, hstream]
      omega
    · dsimp only
      rw [if_pos hbytes, hbytes, streamOf_concat, hempty, List.length_nil, Nat.add_zero,
        Nat.sub_self]
      rfl
    · dsimp only
      rw [hstream, Nat.add_assoc]
    · dsimp only
      rw [if_pos hbytes, hold, hchunks, hnone, List.nil_append,
        List.dropWhile_cons_of_neg (by simpa using hdropped)]
    · dsimp only
      rw [if_pos hbytes, hempty, List.length_nil, Nat.add_zero]
    · rw [hstream]
      omega
  · obtain ⟨hbytes, hwindow⟩ := h.window hempty
    have hends := hwindow.ends
    have hbegins := hwindow.begins
    rw [if_neg (fun hgap => hgap.2 hwindow.next.symm)]
    refine ⟨?_, rfl⟩
    refine
      { begins := ?_
        ends := ?_
        bytes := ?_
        next := ?_
        chunks := ?_
        retained := ?_
        bounded := ?_ }
    · dsimp only
      rw [if_neg hbytes]
      exact hbegins
    · dsimp only
      rw [if_neg hbytes, hstream]
      omega
    · dsimp only
      rw [if_neg hbytes, hwindow.bytes, streamOf_concat, List.drop_append_of_le_length (by omega)]
    · dsimp only
      rw [hstream, Nat.add_assoc]
    · dsimp only
      have hkept : ¬offset + (streamOf before).length + event.data.length ≤ matcher.baseOffset := by
        have hpositive := List.length_pos_iff.mpr hdata
        omega
      rw [if_neg hbytes, hwindow.chunks, hchunks,
        dropWhile_concat_of_neg (by simpa using hkept)]
    · dsimp only
      rw [if_neg hbytes, List.length_append]
      rcases hwindow.retained with hsame | hlong
      · exact Or.inl hsame
      · exact Or.inr (by omega)
    · rw [hstream]
      omega

theorem Tracks.extend_baseOffset (h : Tracks offset before matcher)
    (hevents : Contiguous offset (before ++ [event])) :
    (matcher.extend event).baseOffset =
      if streamOf before = [] then offset else matcher.baseOffset := by
  obtain ⟨-, hstart, -⟩ := Contiguous.append_iff.mp hevents
  have heventStart : matcher.eventStart event = offset + (streamOf before).length := by
    rw [StreamMatcher.eventStart, hstart, Option.getD_some]
  unfold StreamMatcher.extend
  dsimp only
  rw [heventStart]
  by_cases hempty : streamOf before = []
  · obtain ⟨hbytes, -⟩ := h.fresh hempty
    have hjoins : ¬(matcher.bytes ≠ [] ∧
        offset + (streamOf before).length ≠ matcher.nextOffset) := fun hgap => hgap.1 hbytes
    rw [if_neg hjoins, if_pos hbytes, if_pos hempty, hempty]
    rfl
  · obtain ⟨hbytes, hwindow⟩ := h.window hempty
    have hjoins : ¬(matcher.bytes ≠ [] ∧
        offset + (streamOf before).length ≠ matcher.nextOffset) :=
      fun hgap => hgap.2 hwindow.next.symm
    rw [if_neg hjoins, if_neg hbytes, if_neg hempty]

theorem Window.withMatchers (h : Window offset events window) (matchers : List CompiledCondition) :
    Window offset events { window with matchers := matchers } where
  begins := h.begins
  ends := h.ends
  bytes := h.bytes
  next := h.next
  chunks := h.chunks
  retained := h.retained
  bounded := h.bounded

theorem trim_bytes_ne_nil (h : window.bytes ≠ []) : window.trim.bytes ≠ [] := by
  unfold StreamMatcher.trim
  split
  case isTrue => exact h
  case isFalse hlong =>
    have hkept : 0 < maxMatchWindowBytes := by decide
    obtain ⟨remove, hremove⟩ : ∃ remove, remove = window.bytes.length - maxMatchWindowBytes :=
      ⟨_, rfl⟩
    rw [← hremove]
    dsimp only
    rw [ne_eq, List.drop_eq_nil_iff]
    omega

theorem push_of_nil (hdata : event.data = []) : matcher.push event = (none, matcher) :=
  if_pos hdata

theorem push_of_ne_nil (hdata : event.data ≠ []) :
    matcher.push event =
      ((matcher.extend event).incident event,
        ({ matcher.extend event with
          matchers := (matcher.extend event).scans.map Prod.snd }).trim) :=
  if_neg hdata

theorem Tracks.push (h : Tracks offset before matcher)
    (hevents : Contiguous offset (before ++ [event])) :
    Tracks offset (before ++ [event]) (matcher.push event).2 := by
  by_cases hdata : event.data = []
  · have hstream : streamOf (before ++ [event]) = streamOf before := by
      rw [streamOf_concat, hdata, List.append_nil]
    have hchunks : chunksFrom offset (before ++ [event]) = chunksFrom offset before := by
      rw [chunksFrom_append, chunksFrom, if_pos hdata]
      exact List.append_nil _
    rw [push_of_nil hdata]
    refine ⟨fun hempty => h.fresh (hstream ▸ hempty), fun hne => ?_⟩
    rw [hstream] at hne
    obtain ⟨hbytes, hwindow⟩ := h.window hne
    refine ⟨hbytes, ?_⟩
    exact
      { begins := hwindow.begins
        ends := hstream ▸ hwindow.ends
        bytes := hstream ▸ hwindow.bytes
        next := hstream ▸ hwindow.next
        chunks := hchunks ▸ hwindow.chunks
        retained := hwindow.retained
        bounded := hstream ▸ hwindow.bounded }
  · have hwindow := (h.extend hdata hevents).1
    have hbytes : (matcher.extend event).bytes ≠ [] :=
      List.append_ne_nil_of_right_ne_nil _ hdata
    rw [push_of_ne_nil hdata]
    refine ⟨fun hempty => ?_, fun _ => ⟨trim_bytes_ne_nil hbytes, (hwindow.withMatchers _).trim⟩⟩
    rw [streamOf_concat] at hempty
    exact absurd (List.append_eq_nil_iff.mp hempty).2 hdata

theorem after_concat : matcher.after (before ++ [event]) = ((matcher.after before).push event).2 := by
  rw [StreamMatcher.after, List.foldl_concat]
  rfl

theorem tracks_after (h : Tracks offset [] matcher) (hevents : Contiguous offset events) :
    Tracks offset events (matcher.after events) := by
  induction events using List.reverseRecOn with
  | nil => exact h
  | append_singleton before event ih =>
      rw [after_concat]
      exact (ih (Contiguous.append_iff.mp hevents).1).push hevents

end

end SerialPlatform.Monitor
