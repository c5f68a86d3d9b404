import SerialPlatform.JournalVisits
import SerialPlatform.Occurrences

/-!
# Text search is independent of the records

The records of a direction which continue one another form runs.  A carried search reports
a record exactly where the text ends in it, in the bytes of its whole run.
-/

namespace SerialPlatform.Journal

open RecordLog StatefulSteps

/-! ## Runs -/

/-- The bytes of an event go on where those of the one before it end. -/
def continues (last event : TimelineEvent) : Bool :=
  last.generation = event.generation && last.streamOffsetEnd.isSome &&
    event.streamOffsetStart = last.streamOffsetEnd

/-- A scan which has passed some stops, seen from one direction: the records which still can
be continued, and the sequence number before. -/
structure OpenRun where
  events : List TimelineEvent
  previous : Option ℕ

def OpenRun.none : OpenRun where
  events := []
  previous := Option.none

/-- The record does not follow the one before it, or is of a kind which ends every run. -/
def OpenRun.isBroken (run : OpenRun) (event : TimelineEvent) : Bool :=
  run.previous.any (fun previous => event.seq ≠ satAdd u64Max previous 1) ||
    eventBreaksStream event.kind

/-- The records which an event can continue. -/
def OpenRun.before (run : OpenRun) (event : TimelineEvent) : List TimelineEvent :=
  if run.isBroken event then [] else run.events

/-- The record at the end of the run which it continues, or at the start of a new one. -/
def extendRun (events : List TimelineEvent) (event : TimelineEvent) : List TimelineEvent :=
  if events.getLast?.any (continues · event) then events ++ [event] else [event]

def OpenRun.pass (query : EventQuery) (direction : Direction) (run : OpenRun) : Stop → OpenRun
  | .tail _ .eof _ => run
  | .tail _ (.invalid _) _ => { run with events := [] }
  | .record _ passed =>
      { previous := some passed.seq
        events :=
          if passed.direction ≠ direction then run.before passed
          else if eventMatchesQueryScope passed query then extendRun (run.before passed) passed
          else [] }

/-- The run at the end of some stops: the records in scope and of one direction which follow
one another without a hole, an unreadable record or a stream-breaking event between them. -/
def runOf (query : EventQuery) (direction : Direction) (stops : List Stop) : OpenRun :=
  stops.foldl (OpenRun.pass query direction) .none

def dataOf (events : List TimelineEvent) : Bytes := events.flatMap TimelineEvent.data

/-- The text ends in the bytes of the last event. -/
def EndsInLast (needle : Bytes) (events : List TimelineEvent) : Prop :=
  ∃ stop, (dataOf events.dropLast).length < stop ∧ EndsAt needle (dataOf events) stop

section

variable {needle : Bytes} {carry : StreamSearchCarry} {events : List TimelineEvent}
  {event : TimelineEvent}

/-! ## One search -/

theorem containsBytes_iff {haystack : Bytes} (hneedle : needle ≠ []) :
    containsBytes haystack needle = true ↔ needle <:+: haystack := by
  unfold containsBytes
  rw [Bool.or_eq_true, decide_eq_true_eq, or_iff_right hneedle, List.any_eq_true]
  constructor
  · rintro ⟨start, -, hstart⟩
    rw [← of_decide_eq_true hstart]
    exact ((List.take_prefix _ _).isInfix).trans (List.drop_suffix _ _).isInfix
  · rintro ⟨before, after, rfl⟩
    refine ⟨before.length, ?_, decide_eq_true ?_⟩
    · rw [List.mem_range]
      simp only [List.length_append]
      omega
    · rw [List.append_assoc, List.drop_left, List.take_left]

/-- The carry of a run: the last bytes of it, one fewer than the text has. -/
structure Carried (needle : Bytes) (events : List TimelineEvent) (carry : StreamSearchCarry) :
    Prop where
  fresh : events = [] → carry = .empty
  last : ∀ last, events.getLast? = some last →
    carry.generation = some last.generation ∧ carry.nextOffset = last.streamOffsetEnd
  bytes : carry.bytes = (dataOf events).drop ((dataOf events).length - (needle.length - 1))

theorem carried_empty (needle : Bytes) : Carried needle [] .empty where
  fresh _ := rfl
  last _ h := by cases h
  bytes := (List.drop_eq_nil_of_le (Nat.zero_le _)).symm

theorem Carried.length_le (h : Carried needle events carry) :
    carry.bytes.length ≤ needle.length - 1 := by
  rw [h.bytes, List.length_drop]
  omega

theorem Carried.isContinuous (h : Carried needle events carry) :
    carry.isContinuous event = events.getLast?.any (continues · event) := by
  cases hlast : events.getLast? with
  | none =>
      rw [h.fresh (List.getLast?_eq_none_iff.1 hlast)]
      rfl
  | some last =>
      obtain ⟨hgeneration, hoffset⟩ := h.last last hlast
      unfold StreamSearchCarry.isContinuous continues
      rw [hgeneration, hoffset]
      simp [eq_comm]

theorem dataOf_concat (events : List TimelineEvent) (event : TimelineEvent) :
    dataOf (events ++ [event]) = dataOf events ++ event.data := by
  simp [dataOf]

/-- The bytes which are searched are the end of the run. -/
theorem Carried.window (h : Carried needle events carry) :
    ∃ before, extendRun events event = before ++ [event] ∧
      (if carry.isContinuous event then carry.bytes else []) =
        (dataOf before).drop ((dataOf before).length - (needle.length - 1)) := by
  rw [h.isContinuous]
  unfold extendRun
  split_ifs
  · exact ⟨events, rfl, h.bytes⟩
  · exact ⟨[], rfl, (List.drop_eq_nil_of_le (Nat.zero_le _)).symm⟩

/-- A text ends in the last bytes of a stream exactly if it is in a window which holds one
byte fewer of what came before. -/
theorem mem_window_iff (hneedle : needle ≠ []) (before data : Bytes) :
    needle <:+: before.drop (before.length - (needle.length - 1)) ++ data ↔
      ∃ stop, before.length < stop ∧ EndsAt needle (before ++ data) stop := by
  have hpositive : 0 < needle.length := List.length_pos_of_ne_nil hneedle
  have hwindow : before.drop (before.length - (needle.length - 1)) ++ data =
      (before ++ data).drop (before.length - (needle.length - 1)) :=
    (List.drop_append_of_le_length (Nat.sub_le _ _)).symm
  have hinside : before.length - (needle.length - 1) ≤ (before ++ data).length := by
    rw [List.length_append]
    omega
  rw [hwindow]
  constructor
  · intro hfound
    obtain ⟨stop, hback, hends⟩ := exists_endsAt_of_infix_drop hinside hfound
    exact ⟨stop, by omega, hends⟩
  · rintro ⟨stop, hlast, hends⟩
    have hlong := hends.length_le
    exact hends.infix_drop (by omega)

/-- A search reports the event exactly if the text ends in its bytes. -/
theorem Carried.search (h : Carried needle events carry) (hneedle : needle ≠ []) :
    ((carry.search event needle).1 = true ↔ EndsInLast needle (extendRun events event)) ∧
      Carried needle (extendRun events event) (carry.search event needle).2 := by
  obtain ⟨before, hrun, hwindow⟩ := @Carried.window _ _ _ event h
  unfold StreamSearchCarry.search containsStreamChunk
  dsimp only
  rw [hwindow, hrun, if_neg hneedle]
  constructor
  · rw [containsBytes_iff hneedle, mem_window_iff hneedle, EndsInLast, List.dropLast_concat,
      dataOf_concat]
  · constructor
    · intro hnil
      exact absurd hnil (by simp)
    · intro last hlast
      rw [List.getLast?_concat] at hlast
      obtain rfl := Option.some.inj hlast
      exact ⟨rfl, rfl⟩
    · dsimp only
      have hwhole : (dataOf before).drop ((dataOf before).length - (needle.length - 1)) ++
            event.data =
          (dataOf before ++ event.data).drop ((dataOf before).length - (needle.length - 1)) :=
        (List.drop_append_of_le_length (Nat.sub_le _ _)).symm
      rw [dataOf_concat, hwhole, List.drop_drop, List.length_drop, List.length_append]
      congr 1
      omega

/-! ## The carries during a scan -/

def Carries.of (carries : Carries) : Direction → StreamSearchCarry
  | .rx => carries.rx
  | .tx => carries.tx
  | .none => .empty

/-- A scan which has passed some stops without an end. -/
inductive Passes (codec : Codec) (search : Search) : List Stop → Scan → Scan → Prop
  | nil {scan : Scan} : Passes codec search [] scan scan
  | take {segment : SegmentDescriptor} {event : TimelineEvent} {passed : List Stop}
      {start scan accounted observed : Scan} (h : Passes codec search passed start scan)
      (haccount : scan.account search event = .ok accounted)
      (hobserve : (accounted.follow event).observe search event = (true, observed))
      (hbehind : search.query.isBehindCursor event = true) :
      Passes codec search (passed ++ [.record segment event]) start (observed.take codec event)
  | pass {segment : SegmentDescriptor} {event : TimelineEvent} {passed : List Stop} {found : Bool}
      {start scan accounted observed : Scan} (h : Passes codec search passed start scan)
      (haccount : scan.account search event = .ok accounted)
      (hobserve : (accounted.follow event).observe search event = (found, observed))
      (hnot : (search.query.isBehindCursor event && found) = false) :
      Passes codec search (passed ++ [.record segment event]) start (observed.reach event.seq)
  | leave {segment : SegmentDescriptor} {tail : Tail} {lastGoodSeq : Option ℕ}
      {passed : List Stop} {start scan : Scan} {gaps : List GapRange}
      (h : Passes codec search passed start scan)
      (hgaps : pushCorrupt scan.gaps (corruptRange segment tail lastGoodSeq) = .ok gaps) :
      Passes codec search (passed ++ [.tail segment tail lastGoodSeq]) start
        (scan.leave segment tail gaps)

/-- The carries hold what a search needs of the runs. -/
structure Scan.Follows (query : EventQuery) (needle : Bytes) (passed : List Stop) (scan : Scan) :
    Prop where
  carried : ∀ direction, direction ≠ .none →
    Carried needle (runOf query direction passed).events (scan.carries.of direction)
  previous : ∀ direction, (runOf query direction passed).previous = scan.previousScannedSeq
  scanned : ∀ seq, scan.previousScannedSeq = some seq → seq ≤ scan.previousContiguousSeq
  floor : query.floor ≤ scan.previousContiguousSeq

variable {query : EventQuery} {direction : Direction} {passed : List Stop} {stop : Stop}
  {segment : SegmentDescriptor} {codec : Codec} {search : Search} {scan accounted observed : Scan}
  {gaps : List GapRange}

theorem runOf_concat : runOf query direction (passed ++ [stop]) =
    (runOf query direction passed).pass query direction stop :=
  List.foldl_concat ..

/-- A run begins with a record. -/
theorem runOf_events_eq_nil (h : (runOf query direction passed).previous = none) :
    (runOf query direction passed).events = [] := by
  induction passed using List.reverseRecOn with
  | nil => rfl
  | append_singleton passed stop ih =>
      rw [runOf_concat] at h ⊢
      cases stop with
      | record segment event => cases h
      | tail segment ending lastGoodSeq =>
          cases ending with
          | eof => exact ih h
          | invalid reason => rfl

theorem follows_start (query : EventQuery) (needle : Bytes) (gaps : List GapRange) :
    (Scan.start query gaps).Follows query needle [] where
  carried direction hdirection := by
    cases direction with
    | none => exact absurd rfl hdirection
    | rx | tx => exact carried_empty needle
  previous _ := rfl
  scanned _ h := by cases h
  floor := le_refl _

/-- What accounting for a record does to the search. -/
theorem Scan.account_search (haccount : scan.account search event = .ok accounted) :
    accounted.previousScannedSeq = scan.previousScannedSeq ∧
      scan.previousContiguousSeq ≤ accounted.previousContiguousSeq ∧
      (search.query.floor < event.seq → event.seq ≤ accounted.previousContiguousSeq) ∧
      (accounted.carries = scan.carries ∨
        accounted.carries = .empty ∧ satAdd u64Max scan.previousContiguousSeq 1 < event.seq) := by
  unfold Scan.account at haccount
  split_ifs at haccount with hfloor
  · obtain ⟨between, hbetween, hrest⟩ := Except.exists_of_bind_ok haccount
    cases hrest
    split_ifs at hbetween with hhole
    · obtain ⟨gaps, -, hgaps⟩ := Except.exists_of_bind_ok hbetween
      cases hgaps
      exact ⟨rfl, le_max_left _ _, fun _ => le_max_right _ _, .inr ⟨rfl, hhole⟩⟩
    · cases hbetween
      exact ⟨rfl, le_max_left _ _, fun _ => le_max_right _ _, .inl rfl⟩
  · cases haccount
    exact ⟨rfl, le_refl _, fun h => absurd h hfloor, .inl rfl⟩

/-- Every hole in the numbers breaks the runs, so that the holes which are reported break
no others. -/
theorem Scan.Follows.follow (h : scan.Follows search.query needle passed)
    (haccount : scan.account search event = .ok accounted) (hdirection : direction ≠ .none) :
    Carried needle ((runOf search.query direction passed).before event)
      ((accounted.follow event).carries.of direction) := by
  obtain ⟨hprevious, -, -, hcarries⟩ := Scan.account_search haccount
  have hempty : Carries.empty.of direction = .empty := by
    cases direction <;> rfl
  have hbroken : (runOf search.query direction passed).isBroken event =
      (accounted.previousScannedSeq.any (fun previous => event.seq ≠ satAdd u64Max previous 1) ||
        eventBreaksStream event.kind) := by
    unfold OpenRun.isBroken
    rw [h.previous, hprevious]
  unfold OpenRun.before Scan.follow
  dsimp only
  rw [hbroken]
  split_ifs with hbreaks
  · rw [hempty]
    exact carried_empty needle
  · rcases hcarries with hsame | ⟨hcleared, hhole⟩
    · rw [hsame]
      exact h.carried direction hdirection
    · -- no record before it, or the hole is in the numbers of the records too
      rw [hcleared, hempty]
      cases hlast : scan.previousScannedSeq with
      | none =>
          rw [runOf_events_eq_nil ((h.previous direction).trans hlast)]
          exact carried_empty needle
      | some previous =>
          exfalso
          apply hbreaks
          have hle := h.scanned previous hlast
          have hnext : satAdd u64Max previous 1 ≤ satAdd u64Max scan.previousContiguousSeq 1 :=
            min_le_min_right _ (Nat.succ_le_succ hle)
          rw [hprevious, hlast, Option.any_some, Bool.or_eq_true]
          exact .inl (decide_eq_true (by omega))

theorem Scan.observe_frame (search : Search) (event : TimelineEvent) :
    ((accounted.follow event).observe search event).2.previousScannedSeq = some event.seq ∧
      ((accounted.follow event).observe search event).2.previousContiguousSeq =
        accounted.previousContiguousSeq := by
  unfold Scan.observe
  split_ifs <;> exact ⟨rfl, rfl⟩

/-- What a record in scope is reported for. -/
def IsFound (query : EventQuery) (needle : Bytes) (passed : List Stop) (event : TimelineEvent) :
    Prop :=
  eventMatchesQueryScope event query = true ∧
    match event.direction with
    | .none => needle <:+: event.data
    | direction =>
        EndsInLast needle (extendRun ((runOf query direction passed).before event) event)

theorem runOf_record : (runOf query direction (passed ++ [.record segment event])).events =
    if event.direction ≠ direction then (runOf query direction passed).before event
    else if eventMatchesQueryScope event query then
      extendRun ((runOf query direction passed).before event) event
    else [] := by
  rw [runOf_concat]
  rfl

/-- A record out of scope interrupts the run of its direction. -/
theorem Carries.interrupt_carried {carries : Carries} (hdirection : direction ≠ .none)
    (hscope : ¬eventMatchesQueryScope event query = true)
    (hcarried : Carried needle ((runOf query direction passed).before event)
      (carries.of direction)) :
    Carried needle (runOf query direction (passed ++ [.record segment event])).events
      ((carries.interrupt event.direction).of direction) := by
  rw [runOf_record]
  by_cases hown : event.direction = direction
  · rw [if_neg (not_ne_iff.2 hown), if_neg hscope, hown]
    have hinterrupted : (carries.interrupt direction).of direction = .empty := by
      cases direction <;> rfl
    rw [hinterrupted]
    exact carried_empty needle
  · rw [if_pos hown]
    have hkept : (carries.interrupt event.direction).of direction = carries.of direction := by
      revert hown
      cases event.direction <;> cases direction <;> intro hown <;>
        first | rfl | exact absurd rfl hown
    rw [hkept]
    exact hcarried

/-- A record in scope is searched in the run of its direction. -/
theorem Carries.search_carried {carries : Carries} (hneedle : needle ≠ [])
    (hscope : eventMatchesQueryScope event query = true)
    (hcarried : ∀ direction, direction ≠ .none →
      Carried needle ((runOf query direction passed).before event) (carries.of direction)) :
    ((carries.search (.contains needle) event).1 = true ↔ IsFound query needle passed event) ∧
      ∀ direction, direction ≠ .none →
        Carried needle (runOf query direction (passed ++ [.record segment event])).events
          ((carries.search (.contains needle) event).2.of direction) := by
  have hother : ∀ {direction : Direction}, direction ≠ .none → event.direction ≠ direction →
      ∀ {carry : StreamSearchCarry}, carry = carries.of direction →
      Carried needle (runOf query direction (passed ++ [.record segment event])).events carry := by
    rintro direction hdirection hdiffer carry rfl
    rw [runOf_record, if_pos hdiffer]
    exact hcarried direction hdirection
  have hown : ∀ {direction : Direction}, event.direction = direction →
      (runOf query direction (passed ++ [.record segment event])).events =
        extendRun ((runOf query direction passed).before event) event := by
    intro direction hsame
    rw [runOf_record, if_neg (not_ne_iff.2 hsame), if_pos hscope]
  unfold Carries.search Carries.searchWith IsFound
  rw [hscope]
  dsimp only
  cases hdirection : event.direction with
  | rx =>
      obtain ⟨hfound, hnext⟩ := @Carried.search _ _ _ event (hcarried .rx (by decide)) hneedle
      refine ⟨hfound.trans (and_iff_right rfl).symm, fun direction hreal => ?_⟩
      cases direction with
      | rx =>
          rw [hown hdirection]
          exact hnext
      | tx => exact hother hreal (by rw [hdirection]; decide) rfl
      | none => exact absurd rfl hreal
  | tx =>
      obtain ⟨hfound, hnext⟩ := @Carried.search _ _ _ event (hcarried .tx (by decide)) hneedle
      refine ⟨hfound.trans (and_iff_right rfl).symm, fun direction hreal => ?_⟩
      cases direction with
      | rx => exact hother hreal (by rw [hdirection]; decide) rfl
      | tx =>
          rw [hown hdirection]
          exact hnext
      | none => exact absurd rfl hreal
  | none =>
      refine ⟨(containsBytes_iff hneedle).trans (and_iff_right rfl).symm, fun direction hreal => ?_⟩
      exact hother hreal (by rw [hdirection]; exact hreal.symm) rfl

/-- A record is reported exactly if the text ends in it, and the carries follow. -/
theorem Scan.Follows.observe (h : scan.Follows search.query needle passed)
    (hneedle : needle ≠ []) (hfilter : search.filter = .contains needle)
    (haccount : scan.account search event = .ok accounted) {found : Bool}
    (hobserve : (accounted.follow event).observe search event = (found, observed)) :
    (found = true ↔ IsFound search.query needle passed event) ∧
      observed.Follows search.query needle (passed ++ [.record segment event]) := by
  obtain ⟨-, hmore, hreached, -⟩ := Scan.account_search haccount
  have hcarried : ∀ direction, direction ≠ Direction.none →
      Carried needle ((runOf search.query direction passed).before event)
        ((accounted.follow event).carries.of direction) :=
    fun direction hdirection => h.follow haccount hdirection
  have hframe := @Scan.observe_frame accounted search event
  rw [hobserve] at hframe
  have hseq : event.seq ≤ accounted.previousContiguousSeq := by
    by_cases hfloor : search.query.floor < event.seq
    · exact hreached hfloor
    · exact (not_lt.1 hfloor).trans (h.floor.trans hmore)
  suffices hsearch : (found = true ↔ IsFound search.query needle passed event) ∧
      ∀ direction, direction ≠ .none →
        Carried needle (runOf search.query direction (passed ++ [.record segment event])).events
          (observed.carries.of direction) by
    refine ⟨hsearch.1, hsearch.2, fun direction => ?_, fun seq hseq' => ?_, ?_⟩
    · rw [runOf_concat, hframe.1]
      rfl
    · rw [hframe.1] at hseq'
      rw [hframe.2, ← Option.some.inj hseq']
      exact hseq
    · rw [hframe.2]
      exact h.floor.trans hmore
  unfold Scan.observe at hobserve
  split_ifs at hobserve with hscope
  · obtain ⟨rfl, rfl⟩ := Prod.mk.inj hobserve
    rw [hfilter]
    exact Carries.search_carried hneedle hscope hcarried
  · obtain ⟨rfl, rfl⟩ := Prod.mk.inj hobserve
    refine ⟨⟨fun hfalse => (by cases hfalse), fun hfound => absurd hfound.1 hscope⟩, ?_⟩
    intro direction hdirection
    exact Carries.interrupt_carried hdirection hscope (hcarried direction hdirection)

theorem Passes.follows (h : Passes codec search passed (Scan.start search.query gaps) scan)
    (hneedle : needle ≠ []) (hfilter : search.filter = .contains needle) :
    scan.Follows search.query needle passed := by
  generalize hstart : Scan.start search.query gaps = start at h
  induction h with
  | nil =>
      rw [← hstart]
      exact follows_start search.query needle gaps
  | take h haccount hobserve hbehind ih =>
      obtain ⟨hcarried, hprevious, hscanned, hfloor⟩ :=
        ((ih hstart).observe hneedle hfilter haccount hobserve).2
      exact ⟨hcarried, hprevious, hscanned, hfloor⟩
  | pass h haccount hobserve hnot ih =>
      obtain ⟨hcarried, hprevious, hscanned, hfloor⟩ :=
        ((ih hstart).observe hneedle hfilter haccount hobserve).2
      exact ⟨hcarried, hprevious, hscanned, hfloor⟩
  | @leave segment ending lastGoodSeq passed start scan gaps h hgaps ih =>
      have hfollows := ih hstart
      unfold Scan.leave
      cases ending with
      | eof =>
          have hsame : ∀ direction, runOf search.query direction
              (passed ++ [.tail segment .eof lastGoodSeq]) =
                runOf search.query direction passed := fun direction => runOf_concat
          refine ⟨fun direction hdirection => ?_, fun direction => ?_, hfollows.scanned,
            hfollows.floor⟩
          · rw [hsame]
            exact hfollows.carried direction hdirection
          · rw [hsame]
            exact hfollows.previous direction
      | invalid reason =>
          refine ⟨fun direction hdirection => ?_, fun direction => ?_, hfollows.scanned,
            hfollows.floor⟩
          · rw [runOf_concat]
            cases direction with
            | none => exact absurd rfl hdirection
            | rx | tx => exact carried_empty needle
          · rw [runOf_concat]
            exact hfollows.previous direction

/-! ## Whole scans -/

/-- The records behind the cursor in which the text ends, each in its run. -/
inductive Reports (query : EventQuery) (needle : Bytes) : List Stop → List TimelineEvent → Prop
  | nil : Reports query needle [] []
  | found {segment : SegmentDescriptor} {event : TimelineEvent} {passed : List Stop}
      {reported : List TimelineEvent} (h : Reports query needle passed reported)
      (hbehind : query.isBehindCursor event = true) (hfound : IsFound query needle passed event) :
      Reports query needle (passed ++ [.record segment event]) (reported ++ [event])
  | skipped {segment : SegmentDescriptor} {event : TimelineEvent} {passed : List Stop}
      {reported : List TimelineEvent} (h : Reports query needle passed reported)
      (hnot : ¬(query.isBehindCursor event = true ∧ IsFound query needle passed event)) :
      Reports query needle (passed ++ [.record segment event]) reported
  | ended {segment : SegmentDescriptor} {tail : Tail} {lastGoodSeq : Option ℕ}
      {passed : List Stop} {reported : List TimelineEvent} (h : Reports query needle passed reported) :
      Reports query needle (passed ++ [.tail segment tail lastGoodSeq]) reported

theorem Passes.reports (h : Passes codec search passed (Scan.start search.query gaps) scan)
    (hneedle : needle ≠ []) (hfilter : search.filter = .contains needle) :
    Reports search.query needle passed scan.events := by
  generalize hstart : Scan.start search.query gaps = start at h
  induction h with
  | nil =>
      rw [← hstart]
      exact .nil
  | @take segment event passed start scan accounted observed h haccount hobserve hbehind ih =>
      have hfollows := (hstart ▸ h).follows hneedle hfilter
      have hfound := (@Scan.Follows.observe _ _ _ segment _ _ _ _ hfollows hneedle hfilter haccount
        _ hobserve).1.1 rfl
      have hsame := (Scan.account_sameCursor haccount).trans
        (Scan.observe_sameCursor search event)
      rw [hobserve] at hsame
      unfold Scan.take
      dsimp only
      rw [hsame.events]
      exact .found (ih hstart) hbehind hfound
  | @pass segment event passed found start scan accounted observed h haccount hobserve hnot ih =>
      have hfollows := (hstart ▸ h).follows hneedle hfilter
      have hfound := (@Scan.Follows.observe _ _ _ segment _ _ _ _ hfollows hneedle hfilter haccount
        _ hobserve).1
      have hsame := (Scan.account_sameCursor haccount).trans
        (Scan.observe_sameCursor search event)
      rw [hobserve] at hsame
      unfold Scan.reach
      dsimp only
      rw [hsame.events]
      apply Reports.skipped (ih hstart)
      rintro ⟨hbehind, hends⟩
      rw [hbehind, hfound.2 hends] at hnot
      cases hnot
  | @leave segment ending lastGoodSeq passed start scan gaps h hgaps ih =>
      have hsame : (scan.leave segment ending gaps).events = scan.events := by
        unfold Scan.leave
        cases ending <;> rfl
      rw [hsame]
      exact .ended (ih hstart)

/-- A scan has passed the first of its stops when it ends. -/
theorem Visits.passes {stops : List Stop} {start result : Scan}
    (h : Visits codec search stops scan result) (hpassed : Passes codec search passed start scan) :
    ∃ reached last, reached <+: passed ++ stops ∧ Passes codec search reached start last ∧
      result.events = last.events := by
  induction h generalizing passed with
  | done => exact ⟨passed, _, List.prefix_append _ _, hpassed, rfl⟩
  | budget => exact ⟨passed, _, List.prefix_append _ _, hpassed, rfl⟩
  | beyond => exact ⟨passed, _, List.prefix_append _ _, hpassed, rfl⟩
  | @full segment event stops scan accounted observed hfits haccount hobserve =>
      have hsame := (Scan.account_sameCursor haccount).trans
        (Scan.observe_sameCursor search event)
      rw [hobserve] at hsame
      exact ⟨passed, _, List.prefix_append _ _, hpassed, hsame.events⟩
  | @take segment event stops scan accounted observed result hfits haccount hobserve hbehind hrest
      ih =>
      have hnext : Passes codec search (passed ++ [.record segment event]) start _ :=
        .take hpassed haccount hobserve hbehind
      have hlonger := ih hnext
      rwa [List.append_assoc] at hlonger
  | @pass segment event stops found scan accounted observed result hfits haccount hobserve hnot
      hrest ih =>
      have hnext : Passes codec search (passed ++ [.record segment event]) start _ :=
        .pass hpassed haccount hobserve hnot
      have hlonger := ih hnext
      rwa [List.append_assoc] at hlonger
  | @leave segment ending lastGoodSeq stops scan result gaps hgaps hrest ih =>
      have hnext : Passes codec search (passed ++ [.tail segment ending lastGoodSeq]) start _ :=
        .leave hpassed hgaps
      have hlonger := ih hnext
      rwa [List.append_assoc] at hlonger

variable {engine : RegexEngine} {disk : Disk} {port : String}

/-- The events of a response come from a scan of the selected segments. -/
theorem gives_queryFiles_events (query : EventQuery) :
    Gives (queryFiles codec engine disk port query) fun response =>
      ∃ search gaps scan, search.query = query ∧ query.textFilter engine = .ok search.filter ∧
        Visits codec search (scanStops codec disk search (scannedSegments codec disk port query))
          (Scan.start query gaps) scan ∧
        response.events = scan.events := by
  unfold queryFiles
  apply gives_any.bind
  intro _ _
  apply Gives.bind (gives_lift fun filter hfilter => hfilter)
  intro filter hfilter
  apply (gives_discoverSegmentsForQuery query).bind
  intro discovery hdiscovery
  apply (gives_selectEpoch query discovery.descriptors).bind
  intro selectedEpoch hepoch
  dsimp only
  apply gives_any.bind
  intro gaps _
  rw [hepoch.1, hdiscovery]
  apply (gives_scanSegments_visits _).bind
  intro scan hvisits
  apply gives_any.bind
  intro _ _
  apply gives_ite
  · exact fun _ => gives_throw
  · intro _
    exact gives_pure ⟨_, gaps, scan, rfl, hfilter, hvisits, rfl⟩

theorem runQuery_reports {query : EventQuery} {text : String} {maxScanBytes : ℕ}
    {isLate : ℕ → Bool} {response : EventQueryResponse} (htext : query.contains = some text)
    (hneedle : HexName.utf8 text ≠ [])
    (h : runQuery codec engine disk port query maxScanBytes isLate = .ok response) :
    ∃ search passed, search.query = query ∧
      passed <+: scanStops codec disk search (scannedSegments codec disk port query) ∧
      Reports query (HexName.utf8 text) passed response.events := by
  unfold runQuery at h
  obtain ⟨_, -, h⟩ := Except.exists_of_bind_ok h
  obtain ⟨⟨answer, budget⟩, hrun, h⟩ := Except.exists_of_bind_ok h
  cases h
  obtain ⟨search, gaps, scan, rfl, hfilter, hvisits, hevents⟩ :=
    (gives_queryFiles_events query).holds _ _ _ hrun
  have hcontains : search.filter = .contains (HexName.utf8 text) := by
    unfold EventQuery.textFilter at hfilter
    rw [htext] at hfilter
    exact (Except.ok.inj hfilter).symm
  obtain ⟨passed, last, hprefix, hpasses, hlast⟩ := hvisits.passes .nil
  refine ⟨search, passed, rfl, hprefix, ?_⟩
  rw [hevents, hlast]
  exact hpasses.reports hneedle hcontains

end

/-- A search for a text, wherever the scan has come to: it reports a record exactly if the
text ends in it, carries less than the text, and the response holds what was reported. -/
theorem text_search_is_offline (codec : Codec) (query : EventQuery) (first : UInt8)
    (rest : Bytes) :
    (∀ search gaps passed scan segment event accounted found observed, search.query = query →
      search.filter = .contains (first :: rest) → Stop.Fits search segment event →
      Passes codec search passed (Scan.start query gaps) scan →
      scan.account search event = .ok accounted →
      (accounted.follow event).observe search event = (found, observed) →
      (found = true ↔ IsFound query (first :: rest) passed event) ∧
        ∀ direction, (observed.carries.of direction).bytes.length ≤ rest.length) ∧
    ∀ engine disk port text maxScanBytes isLate response, query.contains = some text →
      HexName.utf8 text = first :: rest →
      runQuery codec engine disk port query maxScanBytes isLate = .ok response →
      ∃ search passed, search.query = query ∧
        passed <+: scanStops codec disk search (scannedSegments codec disk port query) ∧
        Reports query (first :: rest) passed response.events := by
  constructor
  · rintro search gaps passed scan segment event accounted found observed rfl hfilter - hpasses
      haccount hobserve
    have hneedle : first :: rest ≠ [] := List.cons_ne_nil _ _
    have hfollows := hpasses.follows hneedle hfilter
    obtain ⟨hfound, hnext⟩ :=
      @Scan.Follows.observe _ _ _ segment _ _ _ _ hfollows hneedle hfilter haccount _ hobserve
    refine ⟨hfound, fun direction => ?_⟩
    by_cases hdirection : direction = .none
    · rw [hdirection]
      exact Nat.zero_le _
    · exact (hnext.carried direction hdirection).length_le
  · intro engine disk port text maxScanBytes isLate response htext hutf8 hquery
    have hreports := runQuery_reports htext (by rw [hutf8]; exact List.cons_ne_nil _ _) hquery
    rwa [hutf8] at hreports

end SerialPlatform.Journal
